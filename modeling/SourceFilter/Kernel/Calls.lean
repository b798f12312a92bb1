import SourceFilter.Failure
import SourceFilter.Kernel.Map

/-!
# Calls to the kernel

The kernel holds the maps of the loaded program and the links that attach it to interfaces. Each
call may be set to fail with an error number. Reading a map goes through its keys one by one, in an
order that is up to the kernel, and a key that is gone when its value is looked up is passed over.
-/

namespace SourceFilter

/-- The calls that may fail. -/
inductive KernelCall where
  | createMap
  | lookup
  | update
  | delete
  | nextKey
  | freezeMap
  | loadProgram
  | createLink
  deriving DecidableEq, Repr

/-- A call that is set to fail. -/
structure CallFault where
  /-- The call. -/
  call : KernelCall
  /-- What it has to be about in order to fail; without that, it always fails. -/
  subject : Option String
  /-- The error number. -/
  errno : Errno
  deriving DecidableEq, Repr

/-- An order in which the keys of a map are listed. -/
structure Listing where
  /-- The keys of a map, in this order. -/
  arrange : List Bytes → List Bytes
  /-- No key is lost or repeated. -/
  perm : ∀ keys, (arrange keys).Perm keys

/-- The order in which maps have their keys. -/
def Listing.byteOrder : Listing := ⟨id, fun _ => List.Perm.refl _⟩

/-- The kernel, as far as the filter sees it. -/
structure Kernel where
  /-- The maps that the filter program has. -/
  maps : List (MapName × KernelMap)
  /-- All other maps, by their labels: those of sections of plain data, and of other names. -/
  others : List (String × KernelMap) := []
  /-- The calls that fail. -/
  faults : List CallFault := []
  /-- Entries that maps have as soon as they are made, by the labels of the maps. -/
  seeds : List (String × Bytes × Bytes) := []
  /-- The flags of the links that were made, in order. -/
  links : List Nat := []
  /-- The interfaces that exist. -/
  hasInterface : String → Bool := fun _ => true
  /-- The number of processors. -/
  processors : Nat := 16
  /-- The order in which keys are listed. -/
  listing : Listing := .byteOrder

/-- Why an operation on a map failed. -/
inductive MapError where
  /-- The call failed. -/
  | callFailed (call : KernelCall) (errno : Errno)
  /-- There is no such key. -/
  | keyNotFound
  /-- The array has no such index. -/
  | outOfBounds (index maxEntries : Nat)
  /-- The map is of a kind that cannot be used. -/
  | wrongKind (kind : MapKind)
  /-- The map was declared with keys of another length. -/
  | wrongKeySize (needed declared : Nat)
  /-- The map was declared with values of another length. -/
  | wrongValueSize (needed declared : Nat)
  deriving DecidableEq, Repr

namespace KernelCall

/-- The kernel's name of a call. -/
def name : KernelCall → String
  | .createMap => "bpf_map_create"
  | .lookup => "bpf_map_lookup_elem"
  | .update => "bpf_map_update_elem"
  | .delete => "bpf_map_delete_elem"
  | .nextKey => "bpf_map_get_next_key"
  | .freezeMap => "bpf_map_freeze"
  | .loadProgram => "bpf_prog_load"
  | .createLink => "bpf_link_create"

/-- What is said of a call that failed. -/
def failedMessage (call : KernelCall) : String := "`" ++ call.name ++ "` failed"

end KernelCall

namespace MapError

/-- The error in words. -/
def message : MapError → String
  | .callFailed call _ => call.failedMessage
  | .keyNotFound => "key not found"
  | .outOfBounds index maxEntries =>
    "the index is " ++ Text.decimal index ++ " but `max_entries` is " ++ Text.decimal maxEntries
  | .wrongKind kind => "invalid map type " ++ Text.decimal kind.code
  | .wrongKeySize needed declared =>
    "invalid key size " ++ Text.decimal needed ++ ", expected " ++ Text.decimal declared
  | .wrongValueSize needed declared =>
    "invalid value size " ++ Text.decimal needed ++ ", expected " ++ Text.decimal declared

/-- The error with what caused it. -/
def failure (e : MapError) : Failure :=
  match e with
  | .callFailed _ errno => ⟨e.message, [errno.message]⟩
  | _ => ⟨e.message, []⟩

/-- Whether the operation failed because there is no such key. -/
def isMissingKey : MapError → Bool
  | .keyNotFound => true
  | .callFailed _ errno => errno = .noEntry
  | _ => false

end MapError

namespace Kernel

/-- The error number that a call about a subject is set to fail with. -/
def fault? (k : Kernel) (call : KernelCall) (subject : String) : Option Errno :=
  (k.faults.find? fun f =>
    f.call = call && (f.subject.isNone || f.subject == some subject)).map CallFault.errno

/-- A map of the program. -/
def map? (k : Kernel) (name : MapName) : Option KernelMap := k.maps.lookup name

/-- The kernel with a map replaced. -/
def setMap (k : Kernel) (name : MapName) (m : KernelMap) : Kernel :=
  { k with maps := k.maps.map fun entry => if entry.1 = name then (name, m) else entry }

/-- Makes a call about a map that may change it. -/
def changeMap (k : Kernel) (call : KernelCall) (name : MapName)
    (change : KernelMap → Except Errno KernelMap) : Except MapError Unit × Kernel :=
  match k.fault? call name.text, k.map? name with
  | some errno, _ => (.error (.callFailed call errno), k)
  | none, none => (.error (.callFailed call .badHandle), k)
  | none, some m =>
    match change m with
    | .error errno => (.error (.callFailed call errno), k)
    | .ok m => (.ok (), k.setMap name m)

/-- Files a value under a key of a map. -/
def update (k : Kernel) (name : MapName) (key value : Bytes) : Except MapError Unit × Kernel :=
  k.changeMap .update name fun m => m.update key value

/-- Takes a key out of a map. -/
def delete (k : Kernel) (name : MapName) (key : Bytes) : Except MapError Unit × Kernel :=
  k.changeMap .delete name fun m => m.delete key

/-- Takes a key out of a map; a key that is not there is no failure. -/
def discard (k : Kernel) (name : MapName) (key : Bytes) : Except MapError Unit × Kernel :=
  match k.delete name key with
  | (.error e, k) => if e.isMissingKey then (.ok (), k) else (.error e, k)
  | done => done

/-- The value under a key of a map. -/
def lookup (k : Kernel) (name : MapName) (key : Bytes) : Except MapError Bytes :=
  match k.fault? .lookup name.text, k.map? name with
  | some errno, _ =>
    .error (if errno = .noEntry then .keyNotFound else .callFailed .lookup errno)
  | none, none => .error (.callFailed .lookup .badHandle)
  | none, some m =>
    match m.lookup? key with
    | none => .error .keyNotFound
    | some value => .ok value

/-- The keys of a map. When the kernel knows no next key, the walk ends. -/
def keys (k : Kernel) (name : MapName) : Except MapError (List Bytes) :=
  match k.fault? .nextKey name.text, k.map? name with
  | some errno, _ => if errno = .noEntry then .ok [] else .error (.callFailed .nextKey errno)
  | none, none => .error (.callFailed .nextKey .badHandle)
  | none, some m => .ok (k.listing.arrange m.keys)

/-- The entries of a map under some keys, less the keys that are gone. -/
def entriesAt (k : Kernel) (name : MapName) : List Bytes → Except MapError (List (Bytes × Bytes))
  | [] => .ok []
  | key :: keys =>
    match k.lookup name key with
    | .ok value => (k.entriesAt name keys).map ((key, value) :: ·)
    | .error .keyNotFound => k.entriesAt name keys
    | .error e => .error e

/-- The entries of a map. -/
def entries (k : Kernel) (name : MapName) : Except MapError (List (Bytes × Bytes)) := do
  k.entriesAt name (← k.keys name)

/-- The error for an index that an array does not have. -/
def checkIndex (k : Kernel) (name : MapName) (index : Nat) : Except MapError Unit :=
  match k.map? name with
  | none => .ok ()
  | some m =>
    if index < m.shape.maxEntries then .ok () else .error (.outOfBounds index m.shape.maxEntries)

/-- The number at an index of an array. -/
def readCell (k : Kernel) (name : MapName) (index : Nat) : Except MapError Nat := do
  k.checkIndex name index
  let value ← k.lookup name (Bytes.ofNat 4 index)
  return Bytes.toNat value

/-- Sets the number at an index of an array. -/
def writeCell (k : Kernel) (name : MapName) (index : Nat) (value : UInt64) :
    Except MapError Unit × Kernel :=
  match k.checkIndex name index with
  | .error e => (.error e, k)
  | .ok _ => k.update name (Bytes.ofNat 4 index) (Bytes.ofNat 8 value.toNat)

/-- The running program writes to a map; no call is made, so none can be set to fail. -/
def write? (k : Kernel) (name : MapName) (key value : Bytes) : Option Kernel := do
  let m ← k.map? name
  guard (m.fits key value)
  let m ← (m.update key value).toOption
  return k.setMap name m

/-- A new map with its seeds in it, which are taken as they are. -/
def newMap (k : Kernel) (label : String) (shape : MapShape) : KernelMap :=
  (k.seeds.filter fun seed => seed.1 == label).foldl
    (fun m seed => m.store seed.2.1 seed.2.2) (.create shape)

/-- The kernel with one more map of a label. -/
def addMap (k : Kernel) (label : String) (m : KernelMap) : Kernel :=
  match MapName.ofText? label with
  | some name => { k with maps := k.maps ++ [(name, m)] }
  | none => { k with others := k.others ++ [(label, m)] }

end Kernel
end SourceFilter
