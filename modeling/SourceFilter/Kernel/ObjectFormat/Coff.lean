import SourceFilter.Kernel.ObjectImage

/-!
# The common format

A short header is followed by the entries of the sections. The symbols are elsewhere in the file,
each followed by entries that say more about it, and behind them are the names that do not fit into
entries. There is a form with room for more sections, and the second header of a portable executable
is one of this format.
-/

namespace SourceFilter.Coff

/-- The symbols and their names. -/
structure SymbolTable where
  /-- The length of an entry: numbers of sections have two bytes less in the short ones. -/
  entrySize : Nat
  /-- The entries. -/
  entries : List Bytes := []
  /-- The names that do not fit into entries. -/
  names : Option NameTable := none

/-- The length of an entry for a section. -/
def sectionSize : Nat := 40

/-- The length of an entry for a symbol. -/
def symbolSize : Nat := 18

/-- The length of an entry for a symbol where there is room for more sections. -/
def longSymbolSize : Nat := 20

/-- The table of symbols at an offset, with the names behind it. There is none at offset zero. -/
def symbolTable? (bytes : Bytes) (big : Bool) (offset count size : Nat) : Option SymbolTable :=
  if offset = 0 then some { entrySize := size }
  else do
    let entries ← bytes.table? offset count size
    let start := offset + count * size
    let length ← bytes.number? big start 4
    return ⟨size, entries, some ⟨start, start + length⟩⟩

/-- The number that the digits of a base make. -/
def ofDigits? (base : Nat) (digit? : Nat → Option Nat) (digits : Bytes) : Option Nat :=
  digits.foldlM (fun n b => (digit? b.toNat).map (n * base + ·)) 0

/-- A decimal digit. -/
def decimalDigit? (n : Nat) : Option Nat := if 48 ≤ n ∧ n ≤ 57 then some (n - 48) else none

/-- A digit of base 64. -/
def longDigit? (n : Nat) : Option Nat :=
  if 65 ≤ n ∧ n ≤ 90 then some (n - 65)
  else if 97 ≤ n ∧ n ≤ 122 then some (n - 71)
  else if 48 ≤ n ∧ n ≤ 57 then some (n + 4)
  else if n = 43 then some 62
  else if n = 47 then some 63
  else none

/-- The name of a section. A slash is followed by the offset of a longer name, in decimal, or after
a second slash in base 64. -/
def sectionName? (bytes : Bytes) (names : Option NameTable) (field : Bytes) : Option Bytes :=
  let long? (offset? : Option Nat) : Option Bytes := do (← names).get? bytes (← offset?)
  match field with
  | 0x2F :: 0x2F :: digits => long? (ofDigits? 64 longDigit? digits)
  | 0x2F :: digits => long? (ofDigits? 10 decimalDigit? (Bytes.untilZero digits))
  | field => some field.untilZero

/-- How the sections of a file are placed. -/
structure Placement where
  /-- Where the file is placed in memory. -/
  base : Nat := 0
  /-- Whether sections have a size in memory that differs from their size in the file. -/
  isLoaded : Bool := false

/-- Reads the entry of a section. -/
def readSection (bytes : Bytes) (names : Option NameTable) (p : Placement) (index : Nat)
    (entry : Bytes) : ObjectSection :=
  let field (offset : Nat) : Nat := (entry.number? false offset 4).getD 0
  let flags := field 36
  let size := if p.isLoaded then field 8 else field 16
  { index := index + 1
    name := (sectionName? bytes names (entry.take 8)).bind Bytes.text?
    isCode := flags / 0x20 % 2 == 1 || flags / 0x20000000 % 2 == 1
    address := p.base + field 12
    size := size
    content :=
      if p.isLoaded then bytes.slice? (field 20) (min size (field 16))
      else if flags / 0x80 % 2 == 1 then some []
      else bytes.slice? (field 20) size }

/-- What the fields of a symbol say. -/
structure SymbolFields where
  /-- Its value: where it is in its section. -/
  value : Nat
  /-- The number of its section; large numbers stand for no section. -/
  home : Nat
  /-- Its type. -/
  kind : Nat
  /-- How it is kept. -/
  storage : Nat
  /-- The number of further entries about it. -/
  more : Nat

namespace SymbolFields

/-- Reads the fields of a symbol. -/
def read (entry : Bytes) : SymbolFields :=
  let field (offset width : Nat) : Nat := (entry.number? false offset width).getD 0
  let width := entry.length - 16
  ⟨field 8 4, field 12 width, field (12 + width) 2, field (14 + width) 1, field (15 + width) 1⟩

/-- The symbol is seen from outside. -/
def external : Nat := 2

/-- The symbol is seen in the file only. -/
def static : Nat := 3

/-- The symbol is a place among instructions. -/
def label : Nat := 6

/-- The symbol names the source file. -/
def file : Nat := 103

/-- The symbol may be replaced by another file. -/
def weak : Nat := 105

/-- Whether it is the symbol of a function. -/
def isFunction (f : SymbolFields) : Bool := f.kind / 16 % 4 == 2

/-- Whether it stands for a whole section. -/
def isSection (f : SymbolFields) : Bool := f.storage == static && f.kind == 0 && f.more ≠ 0

/-- Whether its number of a section is one, among numbers of a width. -/
def isPlaced (f : SymbolFields) (width : Nat) : Bool :=
  0 < f.home && f.home < (1 <<< (8 * width)) / 2

/-- Whether its value is a place. -/
def hasAddress (f : SymbolFields) : Bool := [external, static, label, weak].contains f.storage

/-- Whether there are instructions. -/
def isCode (f : SymbolFields) : Bool :=
  f.isFunction && ([external, weak].contains f.storage || (f.storage == static && !f.isSection))

/-- Whether something is defined. -/
def isDefinition (f : SymbolFields) (width : Nat) : Bool :=
  f.isPlaced width &&
    ([external, weak].contains f.storage || (f.storage == static && !f.isSection))

/-- The size of what is named, which is in the further entry of a section or a function. -/
def size (f : SymbolFields) (further : Bytes) : Nat :=
  if f.isSection then (further.number? false 0 4).getD 0
  else if f.storage = external then
    if f.home = 0 then f.value
    else if f.isFunction ∧ f.more ≠ 0 then (further.number? false 4 4).getD 0
    else 0
  else 0

end SymbolFields

/-- The name of a symbol. A zero is followed by the offset of a longer name; the name of a source
file is in the further entries. -/
def symbolName? (bytes : Bytes) (names : Option NameTable) (f : SymbolFields) (entry : Bytes)
    (further : List Bytes) : Option Bytes :=
  if f.storage = SymbolFields.file ∧ f.more ≠ 0 then
    if f.more ≤ further.length then some (Bytes.untilZero (further.take f.more).flatten) else none
  else
    match entry with
    | 0 :: rest => do (← names).get? bytes (← Bytes.number? rest false 3 4)
    | entry => some (Bytes.untilZero (entry.take 8))

/-- Reads the entries of symbols: `skipped` of them belong to the symbol in front of them. -/
def readSymbols (bytes : Bytes) (names : Option NameTable) (sections : List ObjectSection) :
    Nat → Nat → List Bytes → List ObjectSymbol
  | _, _, [] => []
  | index, skipped + 1, _ :: rest => readSymbols bytes names sections (index + 1) skipped rest
  | index, 0, entry :: rest =>
    let f := SymbolFields.read entry
    let width := entry.length - 16
    let start := (sections[f.home - 1]?).map ObjectSection.address
    let place := if f.isPlaced width then start else none
    { index := index
      name := (symbolName? bytes names f entry rest).bind Bytes.text?
      home := if f.isPlaced width then some f.home else none
      address := if f.hasAddress then (place.map (· + f.value)).getD 0 else 0
      size := f.size ((rest.head?).getD [])
      isDefinition := f.isDefinition width
      isCode := f.isCode } :: readSymbols bytes names sections (index + 1) f.more rest

/-- What a file holds, with so many entries of sections at an offset. -/
def image? (bytes : Bytes) (symbols : SymbolTable) (p : Placement) (offset count : Nat) :
    Option ObjectImage := do
  let entries ← bytes.table? offset count sectionSize
  let sections := entries.zipIdx.map fun (entry, i) => readSection bytes symbols.names p i entry
  let read := readSymbols bytes symbols.names sections 0 0 symbols.entries
  return { sections := sections, symbols := read }

/-- What a file in the common format holds. -/
def read? (bytes : Bytes) : Option ObjectImage := do
  let count ← bytes.number? false 2 2
  let table ← bytes.number? false 8 4
  let symbols ← bytes.number? false 12 4
  let optionalSize ← bytes.number? false 16 2
  guard (20 ≤ bytes.length)
  image? bytes (← symbolTable? bytes false table symbols symbolSize) {} (20 + optionalSize) count

/-- What a file in the common format with room for more sections holds. -/
def readBig? (bytes : Bytes) : Option ObjectImage := do
  let count ← bytes.number? false 44 4
  let table ← bytes.number? false 48 4
  let symbols ← bytes.number? false 52 4
  image? bytes (← symbolTable? bytes false table symbols longSymbolSize) {} 56 count

/-- What a portable executable holds. Its second header, at an offset that the first one gives, is
one of the common format, and a further header of 32 or 64 bits follows. Symbols that do not lie
within the file are left out. -/
def readPortable? (bytes : Bytes) : Option ObjectImage := do
  guard (64 ≤ bytes.length)
  let start ← bytes.number? false 60 4
  let signature ← bytes.slice? start 4
  guard (signature = [0x50, 0x45, 0, 0])
  guard (bytes.holdsTable start 120 1)
  let count ← bytes.number? false (start + 6) 2
  let table ← bytes.number? false (start + 12) 4
  let symbols ← bytes.number? false (start + 16) 4
  let optionalSize ← bytes.number? false (start + 20) 2
  let kind ← bytes.number? false (start + 24) 2
  guard (kind = 0x10B ∨ kind = 0x20B)
  let fixedSize := if kind = 0x20B then 112 else 96
  guard (fixedSize ≤ optionalSize)
  let base ←
    if kind = 0x20B then bytes.number? false (start + 48) 8 else bytes.number? false (start + 52) 4
  let directories ← bytes.number? false (start + 24 + fixedSize - 4) 4
  guard (directories * 8 ≤ optionalSize - fixedSize)
  guard (bytes.holdsTable (start + 24) optionalSize 1)
  let symbols :=
    (symbolTable? bytes false table symbols symbolSize).getD { entrySize := symbolSize }
  image? bytes symbols ⟨base, true⟩ (start + 24 + optionalSize) count

/-! ### The extended form -/

/-- Reads the entry of a section in the extended form. -/
def readExtendedSection (bytes : Bytes) (wide : Bool) (index : Nat) (entry : Bytes) :
    ObjectSection :=
  let word := if wide then 8 else 4
  let field (offset width : Nat) : Nat := (entry.number? true offset width).getD 0
  let size := field (8 + 2 * word) word
  let kind := field (if wide then 64 else 36) 4 % 0x10000
  { index := index + 1
    name := (Bytes.untilZero (entry.take 8)).text?
    isCode := kind / 0x20 % 2 == 1
    address := field (8 + word) word
    size := size
    content := if kind = 0x80 then some [] else bytes.slice? (field (8 + 3 * word) word) size }

/-- Reads the entries of symbols in the extended form: `skipped` of them belong to the symbol in
front of them. -/
def readExtendedSymbols (bytes : Bytes) (wide : Bool) (names : Option NameTable) :
    Nat → Nat → List Bytes → List ObjectSymbol
  | _, _, [] => []
  | index, skipped + 1, _ :: rest => readExtendedSymbols bytes wide names (index + 1) skipped rest
  | index, 0, entry :: rest =>
    let field (offset width : Nat) : Nat := (entry.number? true offset width).getD 0
    let home := field 12 2
    let long? (offset : Nat) : Option Bytes := names.bind fun names => names.get? bytes offset
    let name? :=
      if wide then long? (field 8 4)
      else if field 0 4 = 0 then long? (field 4 4)
      else some (Bytes.untilZero (entry.take 8))
    let isPlaced : Bool := 0 < home && home < 0x8000
    { index := index
      name := name?.bind Bytes.text?
      home := if isPlaced then some home else none
      address := if wide then field 0 8 else field 8 4
      size := 0
      isDefinition := isPlaced
      isCode := false } :: readExtendedSymbols bytes wide names (index + 1) (field 17 1) rest

/-- What a file in the extended form holds. -/
def readExtended? (bytes : Bytes) (wide : Bool) : Option ObjectImage := do
  let headerSize := if wide then 24 else 20
  guard (headerSize ≤ bytes.length)
  let count ← bytes.number? true 2 2
  let table ← if wide then bytes.number? true 8 8 else bytes.number? true 8 4
  let symbols ← bytes.number? true (if wide then 20 else 12) 4
  let optionalSize ← bytes.number? true 16 2
  let start := headerSize + optionalSize
  let entrySize := if wide then 72 else sectionSize
  let entries ← if count = 0 then some [] else bytes.table? start count entrySize
  let symbols ← symbolTable? bytes true table symbols symbolSize
  return {
    sections := entries.zipIdx.map fun (entry, i) => readExtendedSection bytes wide i entry
    symbols := readExtendedSymbols bytes wide symbols.names 0 0 symbols.entries }

end SourceFilter.Coff
