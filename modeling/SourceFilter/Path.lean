import SourceFilter.Text.Split

/-!
# Paths

A path is a text of segments with slashes between them. Empty segments and segments `.` say
nothing, unless a `.` starts the path. The last segment that says something is the name of what
the path leads to, and the text before it is the folder.
-/

namespace SourceFilter.Path

/-- Whether a segment says nothing. -/
def isIdle (segment : List Char) : Bool := segment.isEmpty || segment == ['.']

/-- The segments, the last one first, without idle ones at the end of the path. -/
def backwards (segments : List (List Char)) : List (List Char) := segments.reverse.dropWhile isIdle

/-- The name of what a path leads to. A path that ends at `..`, at the root or nowhere has none. -/
def name? (path : List Char) : Option (List Char) :=
  match backwards (Text.split '/' path) with
  | [] => none
  | segment :: _ => if segment = ['.', '.'] then none else some segment

/-- The segments of the folder of what some segments lead to. -/
def folderSegments? (segments : List (List Char)) : Option (List (List Char)) :=
  match backwards segments with
  | [] => none
  | _ :: before => some (before.dropWhile isIdle).reverse

/-- The path of the folder, which may be empty. The root and the empty path are in no folder. -/
def folder? (path : List Char) : Option (List Char) :=
  match Text.split '/' path with
  | [] => none
  | [] :: segment :: segments =>
    (folderSegments? (segment :: segments)).map fun folder => '/' :: Text.join '/' folder
  | ['.'] :: segments =>
    some (((folderSegments? segments).map fun folder => Text.join '/' (['.'] :: folder)).getD [])
  | segments => (folderSegments? segments).map (Text.join '/')

/-- The folder to watch for changes of what a path leads to: the folder, or the working folder. -/
def watched (path : List Char) : List Char :=
  match folder? path with
  | none | some [] => ['.']
  | some folder => folder

end SourceFilter.Path
