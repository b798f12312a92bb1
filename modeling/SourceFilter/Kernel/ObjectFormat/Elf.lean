import SourceFilter.Kernel.ObjectImage

/-!
# The format for linking and execution

A header of 32 or 64 bits says where the tables of segments and of sections are. The names of
sections are in a section of their own, and so are the symbols and the names of symbols. Numbers
without room in the header are in the first entry of the table of sections, which is no section
otherwise.
-/

namespace SourceFilter.Elf

/-- Where a file has its numbers. -/
structure Layout where
  /-- The length of the header. -/
  headerSize : Nat
  /-- The length of offsets, addresses and sizes. -/
  word : Nat
  /-- Where the offset of the table of segments is; that of the table of sections follows. -/
  offsets : Nat
  /-- Where the size and the number of segments and of sections and the section of names are. -/
  counts : Nat
  /-- The length of an entry for a segment. -/
  segmentSize : Nat
  /-- The length of an entry for a section. -/
  sectionSize : Nat
  /-- The length of an entry for a symbol. -/
  symbolSize : Nat
  /-- Where an entry for a symbol has its address; its size follows. -/
  symbolAddress : Nat
  /-- Where an entry for a symbol has its kind; the number of its section follows. -/
  symbolKind : Nat

/-- The layouts for 32 and for 64 bits. -/
def layout (wide : Bool) : Layout :=
  if wide then ⟨64, 8, 32, 54, 56, 64, 24, 8, 4⟩ else ⟨52, 4, 28, 42, 32, 40, 16, 4, 12⟩

/-- An entry of the table of sections. -/
structure Entry where
  /-- Where its name is among the names. -/
  name : Nat
  /-- What kind of section it is. -/
  kind : Nat
  /-- Its marks. -/
  flags : Nat
  /-- Where it is placed in memory. -/
  address : Nat
  /-- Where its contents are. -/
  offset : Nat
  /-- The size of its contents. -/
  size : Nat
  /-- The number of a section that goes with it. -/
  link : Nat
  /-- A further number. -/
  info : Nat

/-- Reads an entry of the table of sections. -/
def Entry.read (l : Layout) (big : Bool) (entry : Bytes) : Entry :=
  let field (offset width : Nat) : Nat := (entry.number? big offset width).getD 0
  { name := field 0 4
    kind := field 4 4
    flags := field 8 l.word
    address := field (8 + l.word) l.word
    offset := field (8 + 2 * l.word) l.word
    size := field (8 + 3 * l.word) l.word
    link := field (8 + 4 * l.word) 4
    info := field (12 + 4 * l.word) 4 }

namespace Entry

/-- The kind of sections of contents of their own. -/
def contentKind : Nat := 1

/-- The kind of sections of symbols. -/
def symbolsKind : Nat := 2

/-- The kind of sections of names. -/
def namesKind : Nat := 3

/-- The kind of sections that take no room in the file. -/
def emptyKind : Nat := 8

/-- Whether a section is marked as holding instructions: it is in memory, and can be executed. -/
def isCode (e : Entry) : Bool :=
  e.kind == contentKind && e.flags / 2 % 2 == 1 && e.flags / 4 % 2 == 1

/-- The contents of a section. -/
def content? (e : Entry) (bytes : Bytes) : Option Bytes :=
  if e.kind = emptyKind then some [] else bytes.slice? e.offset e.size

/-- The names in a section. -/
def names (e : Entry) : NameTable := ⟨e.offset, e.offset + e.size⟩

end Entry

/-- The number that stands in for one that has no room in the header. -/
def overflow : Nat := 0xFFFF

/-- The numbers of sections from here on stand for no section. -/
def reserved : Nat := 0xFF00

/-- The table of sections and the number of the section of their names. -/
def sectionTable? (bytes : Bytes) (wide big : Bool) : Option (List Entry × Nat) := do
  let l := layout wide
  guard (l.headerSize ≤ bytes.length ∧ bytes[6]? = some 1)
  let segmentTable ← bytes.number? big l.offsets l.word
  let sectionTable ← bytes.number? big (l.offsets + l.word) l.word
  let segmentSize ← bytes.number? big l.counts 2
  let segmentCount ← bytes.number? big (l.counts + 2) 2
  let sectionSize ← bytes.number? big (l.counts + 4) 2
  let sectionCount ← bytes.number? big (l.counts + 6) 2
  let names ← bytes.number? big (l.counts + 8) 2
  let first? : Option Entry := do
    guard (sectionTable ≠ 0 ∧ sectionSize = l.sectionSize)
    return Entry.read l big (← bytes.slice? sectionTable l.sectionSize)
  if segmentTable ≠ 0 then
    let count ← if segmentCount < overflow then some segmentCount else first?.map Entry.info
    guard (count = 0 ∨
      (segmentSize = l.segmentSize ∧ bytes.holdsTable segmentTable count l.segmentSize))
  if sectionTable = 0 then return ([], 0)
  let count ← if sectionCount ≠ 0 then some sectionCount else first?.map Entry.size
  if count = 0 then return ([], 0)
  guard (sectionSize = l.sectionSize)
  let entries ← bytes.table? sectionTable count l.sectionSize
  let names ← if names = overflow then first?.map Entry.link else some names
  guard (0 < names ∧ names < count)
  return (entries.map (Entry.read l big), names)

/-- Reads an entry of the table of symbols. -/
def readSymbol (bytes : Bytes) (l : Layout) (big : Bool) (names : NameTable) (index : Nat)
    (entry : Bytes) : ObjectSymbol :=
  let field (offset width : Nat) : Nat := (entry.number? big offset width).getD 0
  let kind := field l.symbolKind 1 % 16
  let home := field (l.symbolKind + 2) 2
  let size := field (l.symbolAddress + l.word) l.word
  let isInSection : Bool := 0 < home && home < reserved
  { index := index
    name := (names.get? bytes (field 0 4)).bind Bytes.text?
    home := if isInSection then some home else none
    address := field l.symbolAddress l.word
    size := size
    isDefinition := isInSection && (kind == 1 || kind == 2 || (kind == 0 && size ≠ 0))
    isCode := kind == 2 || kind == 10 }

/-- The symbols in the first section of symbols. Its first entry is no symbol. -/
def symbols? (bytes : Bytes) (wide big : Bool) (entries : List Entry) :
    Option (List ObjectSymbol) :=
  let l := layout wide
  match entries.find? fun e => e.kind == Entry.symbolsKind with
  | none => some []
  | some e => do
    guard (e.size % l.symbolSize = 0)
    let table ← bytes.table? e.offset (e.size / l.symbolSize) l.symbolSize
    let names ← entries[e.link]?
    guard (names.kind = Entry.namesKind)
    return (table.zipIdx.map fun (entry, i) => readSymbol bytes l big names.names i entry).drop 1

/-- What a file holds. -/
def read? (bytes : Bytes) (wide big : Bool) : Option ObjectImage := do
  let (entries, names) ← sectionTable? bytes wide big
  let symbols ← symbols? bytes wide big entries
  let names? := entries[names]?.map Entry.names
  let sections := entries.zipIdx.map fun (e, i) =>
    { index := i
      name := names?.bind fun names => (names.get? bytes e.name).bind Bytes.text?
      isCode := e.isCode
      address := e.address
      size := e.size
      content := e.content? bytes : ObjectSection }
  return { sections := sections.drop 1, symbols := symbols }

end SourceFilter.Elf
