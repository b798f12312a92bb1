import SourceFilter.Kernel.FilterMaps
import SourceFilter.Kernel.ObjectFile
import SourceFilter.Text.Cut

/-!
# Loading and attaching the filter program

Loading an object file creates its maps, checks that the program in it is one for packets at an
interface, loads it into the kernel, and checks that its maps have the shapes that the filter works
with. A loaded program is attached to an interface in one of the kernel's modes; when the kernel
refuses a mode, the generic one is tried.
-/

namespace SourceFilter

/-- A mode in which a program is attached. -/
structure AttachMode where
  /-- In the driver of the interface. -/
  native : Bool := false
  /-- In the generic packet path. -/
  generic : Bool := false
  deriving DecidableEq, Repr

namespace AttachMode

/-- Whatever the kernel chooses. -/
def unspecified : AttachMode := {}

/-- The driver of the interface. -/
def nativeMode : AttachMode := { native := true }

/-- The generic packet path. -/
def genericMode : AttachMode := { generic := true }

/-- The kernel's flags for a mode. -/
def flags (mode : AttachMode) : Nat :=
  (if mode.generic then 2 else 0) + (if mode.native then 4 else 0)

/-- What a mode is called in the log. -/
def name (mode : AttachMode) : String :=
  if mode.native then "native driver" else if mode.generic then "SKB" else "default"

end AttachMode

/-- A loaded program, attached or not. -/
structure Filter where
  /-- The kernel that runs it. -/
  kernel : Kernel
  /-- What the program is for. -/
  kind : ProgramKind := .packetFilter
  /-- The interface that it is attached to. -/
  interface : Option String := none

/-- What came of loading an object file. -/
structure Loading where
  /-- The kernel with the maps of the object file, if they could be created. -/
  kernel : Option Kernel
  /-- The loaded program, or the first failure. -/
  outcome : Except Failure Filter
  /-- What was logged. -/
  events : List Event

namespace Kernel

/-- A failure about a map, as the failure to load an object file. -/
def mapFailure (f : Failure) : Failure := f.within ("map error: " ++ f.message)

/-- The most bytes that the kernel keeps of a name: it has room for 16, and the last one is zero. -/
def labelSize : Nat := 15

/-- The name of a map as the kernel keeps it. The names of the filter program's maps all fit. -/
def label (name : String) : String :=
  String.ofList (Text.cutBytes labelSize name.toList)

/-- Creates a map of a name. -/
def createMap (k : Kernel) (name : String) (shape : MapShape) : Except Failure KernelMap :=
  match k.fault? .createMap (label name) with
  | some errno =>
    .error (mapFailure
      ⟨"failed to create map `" ++ name ++ "` with code -1", [errno.message]⟩)
  | none => .ok (k.newMap (label name) shape)

/-- Creates the maps of a program. -/
def createMaps (k : Kernel) : List (String × MapShape) → Except Failure Kernel
  | [] => .ok k
  | (name, shape) :: rest =>
    if !shape.kind.isKnown then .error (mapFailure (MapError.wrongKind shape.kind).failure)
    else
      match k.createMap name (shape.requested k.processors) with
      | .error failure => .error failure
      | .ok m => (k.addMap (label name) m).createMaps rest

/-- Freezes a map, so that programs cannot change it. The kernel does not know this call. -/
def freeze (k : Kernel) (label : String) : Except MapError Unit :=
  .error (.callFailed .freezeMap ((k.fault? .freezeMap label).getD .invalidArgument))

/-- Files plain data in its map; data of no size is not filed. -/
def fillData (k : Kernel) (label : String) (m : KernelMap) (content : Bytes) :
    Except MapError KernelMap :=
  if content.isEmpty then .ok m
  else
    match k.fault? .update label with
    | some errno => .error (.callFailed .update errno)
    | none => .ok (m.store (Bytes.ofNat 4 0) content)

/-- Creates the maps of plain data: each is an array with all of the data in its only cell. -/
def createData (k : Kernel) : List PlainData → Except Failure Kernel
  | [] => .ok k
  | data :: rest => do
    let name := label data.name
    let m ← k.createMap data.name ⟨.array, 4, data.size, 1⟩
    let m ← (k.fillData name m data.content).mapError fun e => mapFailure e.failure
    if data.isConstant then (k.freeze name).mapError fun e => mapFailure e.failure
    (k.addMap name m).createData rest

/-- Checks that programs can use all maps. -/
def checkUsable : List (String × MapShape) → Except Failure Unit
  | [] => .ok ()
  | (_, shape) :: rest =>
    if shape.kind.isUsable then checkUsable rest
    else
      .error (mapFailure ⟨"Unsupported map type found " ++ Text.decimal shape.kind.code, []⟩)

/-- The shapes that a map may have. -/
structure MapNeed where
  /-- The kinds that will do. -/
  kinds : List MapKind
  /-- The length of keys. -/
  keySize : Nat
  /-- The length of values. -/
  valueSize : Nat

/-- The maps that the filter works with, in the order in which they are checked. -/
def neededMaps : List (MapName × MapNeed) :=
  [(.blacklist, ⟨[.trie], 8, 1⟩), (.rateLimits, ⟨[.hash, .recentHash], 4, 16⟩),
    (.sourceStats, ⟨[.hash, .recentHash], 4, 16⟩), (.globalStats, ⟨[.array], 4, 8⟩),
    (.generation, ⟨[.array], 4, 8⟩)]

/-- Whether a map will do: first its kind, then its keys, then its values. -/
def MapNeed.check (need : MapNeed) (shape : MapShape) : Except MapError Unit :=
  if !need.kinds.contains shape.kind then .error (.wrongKind shape.kind)
  else if shape.keySize ≠ need.keySize then .error (.wrongKeySize need.keySize shape.keySize)
  else if shape.valueSize ≠ need.valueSize then
    .error (.wrongValueSize need.valueSize shape.valueSize)
  else .ok ()

/-- Checks the maps that the filter works with. -/
def checkMaps (k : Kernel) : List (MapName × MapNeed) → Except Failure Unit
  | [] => .ok ()
  | (name, need) :: rest =>
    match k.map? name with
    | none => .error ⟨name.text ++ " map not found", []⟩
    | some m =>
      match need.check m.shape with
      | .error e => .error e.failure
      | .ok _ => k.checkMaps rest

/-- An object file that was opened, with its maps in the kernel. -/
structure OpenedObject where
  /-- What the filter program in the file is for, if there is one. -/
  kind? : Option ProgramKind
  /-- The kernel with the maps. -/
  kernel : Kernel

/-- Reads an object file and creates its maps. -/
def openObject (k : Kernel) (path : String) : ObjectFile → Except Failure OpenedObject
  | .unreadable errno => .error ⟨"error loading " ++ path, [errno.message]⟩
  | .malformed => .error ObjectFault.notAnObject.failure
  | .image image => do
    let d ← image.read.mapError ObjectFault.failure
    let kernel ← (← k.createMaps d.maps).createData d.data
    checkUsable d.maps
    return ⟨d.program? filterProgram, kernel⟩

/-- Loads the filter program of an opened object file: what it is for. -/
def loadProgram (k : Kernel) : Option ProgramKind → Except Failure ProgramKind
  | none => .error ⟨"XDP program not found", []⟩
  | some .other => .error ⟨"Program is not XDP", ["unexpected program type"]⟩
  | some kind =>
    match k.fault? .loadProgram filterProgram with
    | some errno =>
      .error ⟨"Failed to load XDP program",
        ["the BPF_PROG_LOAD syscall failed. Verifier output: ", errno.message]⟩
    | none => .ok kind

/-- Loads the object file at a path. -/
def loadObject (k : Kernel) (path : String) (object : ObjectFile) : Loading :=
  let started : Event := .info ("Loading ipfilter XDP program from " ++ path)
  match k.openObject path object with
  | .error failure =>
    ⟨none, .error (failure.within ("Failed to load eBPF object " ++ path)), [started]⟩
  | .ok ⟨kind?, k⟩ =>
    let opened : List Event :=
      [started, .debug "eBPF logger not available: log event array AYA_LOGS doesn't exist"]
    match k.loadProgram kind? with
    | .error failure => ⟨some k, .error failure, opened⟩
    | .ok kind =>
      ⟨some k, (k.checkMaps neededMaps).map fun _ => { kernel := k, kind := kind },
        opened ++ [.info "XDP program loaded"]⟩

/-- Makes a link to an interface. A program for packets that a map sends cannot have one. -/
def link (k : Kernel) (kind : ProgramKind) (interface : String) (mode : AttachMode) :
    Except Failure Kernel :=
  if !k.hasInterface interface then .error ⟨"unknown network interface " ++ interface, []⟩
  else if kind ≠ .packetFilter then
    .error ⟨KernelCall.createLink.failedMessage, [Errno.badHandle.message]⟩
  else
    match k.fault? .createLink ("flags=" ++ Text.decimal mode.flags) with
    | some errno => .error ⟨KernelCall.createLink.failedMessage, [errno.message]⟩
    | none => .ok { k with links := k.links ++ [mode.flags] }

end Kernel

namespace Filter

/-- What is logged about a program that was attached. -/
def attachedEvent (interface : String) (mode : AttachMode) : Event :=
  .info ("XDP program attached to " ++ interface ++ " in " ++ mode.name ++ " mode")

/-- The program after it was linked to an interface. -/
def attachedTo (f : Filter) (kernel : Kernel) (interface : String) : Filter :=
  { f with kernel := kernel, interface := some interface }

/-- Attaches the program to an interface. A mode without the generic path that is refused gives way
to the generic path alone. -/
def attach (f : Filter) (interface : String) (mode : AttachMode) :
    Except Failure Unit × Filter × List Event :=
  match f.kernel.link f.kind interface mode with
  | .ok kernel =>
    (.ok (), f.attachedTo kernel interface, [attachedEvent interface mode])
  | .error failure =>
    if mode.generic then (.error (failure.within "Failed to attach XDP program"), f, [])
    else
      let refused : Event :=
        .warn ("Requested XDP mode failed (" ++ failure.message ++ "), trying SKB mode")
      match f.kernel.link f.kind interface .genericMode with
      | .ok kernel =>
        (.ok (), f.attachedTo kernel interface,
          [refused, attachedEvent interface .genericMode])
      | .error failure =>
        (.error (failure.within "Failed to attach XDP program in SKB mode"), f, [refused])

/-- What is logged when the program is let go. -/
def releaseEvents (f : Filter) : List Event :=
  match f.interface with
  | none => []
  | some interface => [.info ("Detaching XDP program from " ++ interface)]

end Filter
end SourceFilter
