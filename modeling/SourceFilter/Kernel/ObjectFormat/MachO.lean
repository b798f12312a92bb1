import SourceFilter.Kernel.ObjectImage

/-!
# Lists of load commands

A header of 32 or 64 bits is followed by commands for loading the file. A command for a segment is
followed by the entries of its sections; another one says where the symbols are. A list that reaches
beyond the file is taken for an empty one, and a command that does not fit ends the list.
-/

namespace SourceFilter.MachO

/-- The start of the name of a field of 16 bytes. -/
def fieldText (entry : Bytes) (offset : Nat) : Bytes :=
  Bytes.untilZero ((entry.drop offset).take 16)

/-- The section that holds instructions, and its segment. -/
def codePlace : Bytes × Bytes := (Bytes.ofText "__TEXT", Bytes.ofText "__text")

/-- The kinds of sections that take no room in the file. -/
def emptyKinds : List Nat := [1, 12, 18]

/-- Reads the entry of a section. -/
def readSection (bytes : Bytes) (wide big : Bool) (entry : Bytes) : ObjectSection :=
  let word := if wide then 8 else 4
  let field (offset width : Nat) : Nat := (entry.number? big offset width).getD 0
  let size := field (32 + word) word
  let kind := field (40 + 3 * word) 4 % 256
  { index := 0
    name := (fieldText entry 0).text?
    isCode := (fieldText entry 16, fieldText entry 0) == codePlace
    address := field 32 word
    size := size
    content :=
      if emptyKinds.contains kind then some [] else bytes.slice? (field (32 + 2 * word) 4) size }

/-- Reads the entry of a symbol, unless it is one for finding faults. -/
def readSymbol? (bytes : Bytes) (wide big : Bool) (names : NameTable)
    (sections : List ObjectSection) (index : Nat) (entry : Bytes) : Option ObjectSymbol :=
  let field (offset width : Nat) : Nat := (entry.number? big offset width).getD 0
  let mark := field 4 1
  let kind := mark / 2 % 8 * 2
  let home := if kind = 14 ∧ field 5 1 ≠ 0 then some (field 5 1) else none
  if 32 ≤ mark then none
  else
    some
      { index := index
        name := (names.get? bytes (field 0 4)).bind Bytes.text?
        home := home
        address := field 8 (if wide then 8 else 4)
        size := 0
        isDefinition := kind ≠ 0
        isCode := sections.any fun s => s.isCode && home == some s.index }

/-- Where the symbols are. -/
structure SymbolTable where
  /-- The entries. -/
  entries : List Bytes := []
  /-- The names. -/
  names : NameTable := ⟨0, 0⟩

/-- What the commands up to some point say. -/
structure Loaded where
  /-- The sections. -/
  sections : List ObjectSection := []
  /-- The symbols. -/
  symbols : SymbolTable := {}

/-- Adds a section. -/
def Loaded.addSection (loaded : Loaded) (s : ObjectSection) : Loaded :=
  { loaded with
    sections := loaded.sections ++ [{ s with index := loaded.sections.length + 1 }] }

/-- The entries of the sections of a segment, which stand behind it. -/
def segmentSections? (command : Bytes) (wide big : Bool) : Option (List Bytes) := do
  let (start, size) := if wide then (72, 80) else (56, 68)
  guard (start ≤ command.length)
  command.table? start (← command.number? big (start - 8) 4) size

/-- The table of symbols that a command declares. -/
def symbolTable? (bytes command : Bytes) (wide big : Bool) : Option SymbolTable := do
  let offset ← command.number? big 8 4
  let count ← command.number? big 12 4
  let names ← command.number? big 16 4
  let size ← command.number? big 20 4
  return ⟨← bytes.table? offset count (if wide then 16 else 12), ⟨names, names + size⟩⟩

/-- Carries out one command of a kind. -/
def Loaded.command? (loaded : Loaded) (bytes command : Bytes) (wide big : Bool) (kind : Nat) :
    Option Loaded :=
  if kind = (if wide then 0x19 else 1) then
    (segmentSections? command wide big).map fun entries =>
      (entries.map (readSection bytes wide big)).foldl addSection loaded
  else if kind = 2 then
    (symbolTable? bytes command wide big).map fun symbols => { loaded with symbols := symbols }
  else some loaded

/-- Carries out so many commands. -/
def Loaded.commands? (loaded : Loaded) (bytes : Bytes) (wide big : Bool) :
    Nat → Bytes → Option Loaded
  | 0, _ => some loaded
  | count + 1, commands =>
    match commands.number? big 0 4, commands.number? big 4 4 with
    | some kind, some size =>
      if size < 8 ∨ commands.length < size then some loaded
      else
        match loaded.command? bytes (commands.take size) wide big kind with
        | none => none
        | some loaded => loaded.commands? bytes wide big count (commands.drop size)
    | _, _ => some loaded

/-- What a file holds. -/
def read? (bytes : Bytes) (wide big : Bool) : Option ObjectImage := do
  let headerSize := if wide then 32 else 28
  guard (headerSize ≤ bytes.length)
  let count ← bytes.number? big 16 4
  let size ← bytes.number? big 20 4
  let commands := (bytes.slice? headerSize size).getD []
  let loaded ← Loaded.commands? {} bytes wide big (min count commands.length) commands
  let symbols := loaded.symbols.entries.zipIdx.filterMap fun (entry, i) =>
    readSymbol? bytes wide big loaded.symbols.names loaded.sections i entry
  return { sections := loaded.sections, symbols := symbols }

end SourceFilter.MachO
