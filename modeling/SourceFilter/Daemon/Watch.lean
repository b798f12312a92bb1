import SourceFilter.Errno
import SourceFilter.Failure
import SourceFilter.Path

/-!
# Watching the configuration file

The daemon watches the folder of its configuration file. What the system reports there matters
when it may mean that the file has new content: that something was created or modified, or was
closed after writing, and that one of the paths it is about ends in the file's name.
-/

namespace SourceFilter

/-- What was created. -/
inductive CreateKind where
  | any
  | file
  | folder
  deriving DecidableEq, Repr

/-- Which side of a renaming a report is about. -/
inductive RenameSide where
  | source
  | target
  | both
  deriving DecidableEq, Repr

/-- What was modified. -/
inductive ModifyKind where
  | any
  | content
  | permissions
  | name (side : RenameSide)
  deriving DecidableEq, Repr

/-- What was removed. -/
inductive RemoveKind where
  | any
  | file
  deriving DecidableEq, Repr

/-- What a file was opened for. -/
inductive AccessMode where
  | any
  | read
  | write
  deriving DecidableEq, Repr

/-- How a file was accessed. -/
inductive AccessKind where
  | any
  | read
  | opened (mode : AccessMode)
  | closed (mode : AccessMode)
  deriving DecidableEq, Repr

/-- What the system reports about a folder. -/
inductive FileEvent where
  | any
  | other
  | created (kind : CreateKind)
  | modified (kind : ModifyKind)
  | removed (kind : RemoveKind)
  | accessed (kind : AccessKind)
  deriving DecidableEq, Repr

namespace FileEvent

/-- Whether a file may have new content. -/
def isRelevant : FileEvent → Bool
  | .created _ => true
  | .modified _ => true
  | .accessed (.closed .write) => true
  | _ => false

/-- Whether an event about some paths is about the file of the given name, and relevant. -/
def concerns (fileName : List Char) (paths : List (List Char)) (event : FileEvent) : Bool :=
  event.isRelevant && paths.any fun path => Path.name? path == some fileName

/-- The event in the log. -/
def text : FileEvent → String
  | .any => "Any"
  | .other => "Other"
  | .created .any => "Create(Any)"
  | .created .file => "Create(File)"
  | .created .folder => "Create(Folder)"
  | .modified .any => "Modify(Any)"
  | .modified .content => "Modify(Data(Content))"
  | .modified .permissions => "Modify(Metadata(Permissions))"
  | .modified (.name .source) => "Modify(Name(From))"
  | .modified (.name .target) => "Modify(Name(To))"
  | .modified (.name .both) => "Modify(Name(Both))"
  | .removed .any => "Remove(Any)"
  | .removed .file => "Remove(File)"
  | .accessed .any => "Access(Any)"
  | .accessed .read => "Access(Read)"
  | .accessed (.opened .any) => "Access(Open(Any))"
  | .accessed (.opened .read) => "Access(Open(Read))"
  | .accessed (.opened .write) => "Access(Open(Write))"
  | .accessed (.closed .any) => "Access(Close(Any))"
  | .accessed (.closed .read) => "Access(Close(Read))"
  | .accessed (.closed .write) => "Access(Close(Write))"

end FileEvent

namespace Path

/-- A character inside a quoted path. -/
def escape (c : Char) : List Char :=
  if c = '"' || c = '\\' then ['\\', c]
  else if c = '\n' then ['\\', 'n']
  else if c = '\r' then ['\\', 'r']
  else if c = '\t' then ['\\', 't']
  else [c]

/-- A path in quotes. -/
def quote (path : List Char) : String := "\"" ++ String.ofList (path.flatMap escape) ++ "\""

/-- The failure to watch the folder of what a path leads to, whose full path is given. -/
def watchFailure (path fullFolder : List Char) (errno : Errno) : Failure :=
  ⟨"Failed to watch " ++ String.ofList (watched path),
    [errno.message ++ " about [" ++ quote fullFolder ++ "]"]⟩

end Path
end SourceFilter
