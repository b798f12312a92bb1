import SourceFilter.Errno
import SourceFilter.Kernel.Bytes
import Std.Data.TreeMap

/-!
# Kernel maps

A kernel map files values under keys, both strings of bytes of a fixed length. A hash map and a
trie hold a bounded number of keys and refuse one more; an array always holds every index, with a
zero where nothing was filed. A map has its keys in byte order.
-/

namespace SourceFilter

/-- The maps of the filter program. -/
inductive MapName where
  | blacklist
  | rateLimits
  | timestamps
  | sourceStats
  | globalStats
  | generation
  deriving DecidableEq, Repr

namespace MapName

/-- All maps, in the order in which the program declares them. -/
def all : List MapName :=
  [.blacklist, .rateLimits, .timestamps, .sourceStats, .globalStats, .generation]

/-- The name of a map in the program. -/
def text : MapName → String
  | .blacklist => "BLACKLIST"
  | .rateLimits => "RATE_LIMITS"
  | .timestamps => "TIMESTAMPS"
  | .sourceStats => "IP_STATS"
  | .globalStats => "GLOBAL_STATS"
  | .generation => "GENERATION"

/-- The map of that name. -/
def ofText? (s : String) : Option MapName := all.find? fun name => name.text == s

end MapName

/-- The kinds of maps, by the kernel's number for them. -/
structure MapKind where
  /-- The kernel's number. -/
  code : Nat
  deriving DecidableEq, Repr

namespace MapKind

/-- A hash map. -/
def hash : MapKind := ⟨1⟩

/-- An array. -/
def array : MapKind := ⟨2⟩

/-- A hash map that may forget keys that are little used. -/
def recentHash : MapKind := ⟨9⟩

/-- A trie of prefixes. -/
def trie : MapKind := ⟨11⟩

/-- An array of event streams, one for each processor. -/
def events : MapKind := ⟨4⟩

/-- An array of network devices. -/
def devices : MapKind := ⟨14⟩

/-- An array of processors. -/
def processors : MapKind := ⟨16⟩

/-- A hash map of network devices. -/
def deviceHash : MapKind := ⟨25⟩

/-- A ring buffer. -/
def ring : MapKind := ⟨27⟩

/-- How many kinds the kernel knows; they are numbered from zero. -/
def count : Nat := 34

/-- Whether the kernel knows the kind. -/
def isKnown (kind : MapKind) : Bool := kind.code < count

/-- The numbers of the kinds that a program may declare: hash maps, arrays, tries, queues, stacks,
ring buffers, filters, and those of programs, events, sockets, processors and devices. Not among
them are maps of maps and what is stored with other objects of the kernel. -/
def usableCodes : List Nat :=
  [1, 2, 3, 4, 5, 6, 7, 9, 10, 11, 14, 15, 16, 17, 18, 22, 23, 25, 27, 30]

/-- Whether a program may declare a map of the kind. -/
def isUsable (kind : MapKind) : Bool := usableCodes.contains kind.code

end MapKind

/-- The declaration of a map. -/
structure MapShape where
  /-- The kind of map. -/
  kind : MapKind
  /-- The length of keys. -/
  keySize : Nat
  /-- The length of values. -/
  valueSize : Nat
  /-- The number of keys it may hold. -/
  maxEntries : Nat
  deriving DecidableEq, Repr

namespace MapShape

/-- The size of a page of memory. -/
def pageSize : Nat := 4096

/-- The length of values that name a device or a processor and the program to run there. -/
def redirectSize : Nat := 8

/-- The shape in which the kernel is asked for a map that was declared so, on a machine with so many
processors. Values that name a device or a processor have a fixed length, event streams without a
number are one for each processor, and a ring buffer has a power of two of pages. -/
def requested (processors : Nat) (shape : MapShape) : MapShape :=
  if [MapKind.devices, .processors, .deviceHash].contains shape.kind then
    { shape with valueSize := redirectSize }
  else if shape.kind = .events ∧ shape.maxEntries = 0 then { shape with maxEntries := processors }
  else if shape.kind = .ring ∧ shape.maxEntries ≠ 0 then
    let pages := (shape.maxEntries + pageSize - 1) / pageSize
    { shape with maxEntries := pages.nextPowerOfTwo * pageSize }
  else shape

/-- Whether a key is an index of an array. -/
def isIndex (shape : MapShape) (key : Bytes) : Bool :=
  shape.kind = .array && key.length == shape.keySize && key.toNat < shape.maxEntries

/-- What every index of an array holds at first. -/
def zero (shape : MapShape) : Bytes := Bytes.ofNat shape.valueSize 0

end MapShape

/-- The entries that the kernel keeps when nothing else is declared. -/
def defaultEntries : Nat := 1024

/-- How the filter program declares its maps. -/
def MapName.shape (maxEntries : Nat) : MapName → MapShape
  | .blacklist => ⟨.trie, 8, 1, maxEntries⟩
  | .rateLimits => ⟨.hash, 4, 16, maxEntries⟩
  | .timestamps => ⟨.hash, 4, 8, maxEntries⟩
  | .sourceStats => ⟨.hash, 4, 16, maxEntries⟩
  | .globalStats => ⟨.array, 4, 8, 2⟩
  | .generation => ⟨.array, 4, 8, 1⟩

/-- A map in the kernel. -/
structure KernelMap where
  /-- How it was declared. -/
  shape : MapShape
  /-- What was filed in it, in byte order of keys. -/
  filed : Std.TreeMap Bytes Bytes := ∅

namespace KernelMap

/-- A new map. -/
def create (shape : MapShape) : KernelMap := { shape := shape }

/-- The value under a key. -/
def lookup? (m : KernelMap) (key : Bytes) : Option Bytes :=
  match m.filed[key]? with
  | some value => some value
  | none => if m.shape.isIndex key then some m.shape.zero else none

/-- The map with an entry, whatever its length. -/
def store (m : KernelMap) (key value : Bytes) : KernelMap :=
  { m with filed := m.filed.insert key value }

/-- Files a value under a key. A key that is there gets the value even when the map is full. -/
def update (m : KernelMap) (key value : Bytes) : Except Errno KernelMap :=
  if (m.lookup? key).isSome then .ok (m.store key value)
  else if m.shape.kind = .array then .error .tooBig
  else if m.filed.size < m.shape.maxEntries then .ok (m.store key value)
  else .error (if m.shape.kind = .trie then .noSpace else .tooBig)

/-- Takes a key out. An index of an array stays. -/
def delete (m : KernelMap) (key : Bytes) : Except Errno KernelMap :=
  if m.shape.isIndex key then .error .invalidArgument
  else if m.filed.contains key then .ok { m with filed := m.filed.erase key }
  else .error .noEntry

/-- The entries, in byte order of keys. -/
def entries (m : KernelMap) : List (Bytes × Bytes) :=
  let indices := if m.shape.kind = .array then List.range m.shape.maxEntries else []
  (indices.foldl (fun filed i => filed.insertIfNew (Bytes.ofNat m.shape.keySize i) m.shape.zero)
    m.filed).toList

/-- The keys, in byte order. -/
def keys (m : KernelMap) : List Bytes := m.entries.map Prod.fst

/-- Whether key and value have the declared lengths. -/
def fits (m : KernelMap) (key value : Bytes) : Bool :=
  key.length == m.shape.keySize && value.length == m.shape.valueSize

/-- What was filed is found. -/
theorem lookup?_store (m : KernelMap) (key value : Bytes) :
    (m.store key value).lookup? key = some value := by
  simp [lookup?, store]

end KernelMap
end SourceFilter
