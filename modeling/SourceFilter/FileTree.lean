import SourceFilter.Errno
import SourceFilter.Path

/-!
# File trees

A file tree has folders and files, each at its place: the names that lead to it from the root. A
path is followed name by name; every step has to start from a folder, and neither a name nor a path
may be too long. Reading and writing files fail as they do on the system.
-/

namespace SourceFilter

/-- The names that lead from the root to a file or a folder. -/
abbrev Place := List String

/-- Folders and files with contents of some kind. -/
structure FileTree (α : Type) where
  /-- The folders, the root among them. -/
  folders : List Place
  /-- The files; of two at one place the first one counts. -/
  files : List (Place × α) := []

namespace FileTree

variable {α : Type}

/-- Whether there is a folder at a place. -/
def isFolder (t : FileTree α) (place : Place) : Bool := t.folders.contains place

/-- The content of the file at a place. -/
def content? (t : FileTree α) (place : Place) : Option α := t.files.lookup place

/-- The most bytes that a name may have. -/
def nameLimit : Nat := 255

/-- The most bytes that a path may have. -/
def pathLimit : Nat := 4095

/-- Checks that a step along a path can start from a place. -/
def enter (t : FileTree α) (place : Place) : Except Errno Unit :=
  if t.isFolder place then .ok ()
  else if (t.content? place).isSome then .error .notDirectory
  else .error .noEntry

/-- One step along a path. -/
def step (t : FileTree α) (place : Place) (segment : String) : Except Errno Place :=
  match t.enter place with
  | .error errno => .error errno
  | .ok _ =>
    if segment = "" || segment = "." then .ok place
    else if segment = ".." then .ok place.dropLast
    else if nameLimit < segment.utf8ByteSize then .error .nameTooLong
    else .ok (place ++ [segment])

/-- Where a path starts, from a working folder, and the segments that follow. -/
def segments (working : Place) (path : String) : Except Errno (Place × List String) :=
  if pathLimit < path.utf8ByteSize then .error .nameTooLong
  else
    match (Text.split '/' path.toList).map String.ofList with
    | [""] => .error .noEntry
    | "" :: segments => .ok ([], segments)
    | segments => .ok (working, segments)

/-- The place that a path leads to, from a working folder. -/
def follow (t : FileTree α) (working : Place) (path : String) : Except Errno Place := do
  let (start, segments) ← segments working path
  segments.foldlM t.step start

/-- Reads the file that a path leads to. -/
def read (t : FileTree α) (working : Place) (path : String) : Except Errno α := do
  let place ← t.follow working path
  if t.isFolder place then .error .isDirectory
  else
    match t.content? place with
    | none => .error .noEntry
    | some content => .ok content

/-- The tree with the file at a place replaced. -/
def put (t : FileTree α) (place : Place) (content : α) : FileTree α :=
  { t with files := (place, content) :: t.files.filter (·.1 != place) }

/-- The tree without the file at a place. -/
def remove (t : FileTree α) (place : Place) : FileTree α :=
  { t with files := t.files.filter (·.1 != place) }

/-- The place where a path lets a file be written. A path that ends with a slash asks for a folder,
so its last name is not looked up. -/
def target (t : FileTree α) (working : Place) (path : String) : Except Errno Place := do
  let (start, segments) ← segments working path
  if segments.getLast? = some "" then
    let named := (segments.reverse.dropWhile (· == "")).reverse
    t.enter (← named.dropLast.foldlM t.step start)
    .error .isDirectory
  else
    let place ← segments.foldlM t.step start
    if t.isFolder place then .error .isDirectory else .ok place

end FileTree
end SourceFilter
