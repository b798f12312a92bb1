import SourceFilter.Kernel.Bytes

/-!
# Object images

Whatever its format, an object file is a list of sections and a list of symbols. A section has a
name and contents; a symbol names a place in a section. Names and contents that the file points to
but does not hold are missing here, and so are numbers that no later use asks for.
-/

namespace SourceFilter

/-- A section of an object file. -/
structure ObjectSection where
  /-- Its number. -/
  index : Nat
  /-- Its name, if that is text. -/
  name : Option String
  /-- Whether it is marked as holding instructions. -/
  isCode : Bool
  /-- Where it is placed in memory. -/
  address : Nat
  /-- Its size in memory. -/
  size : Nat
  /-- Its contents, if the file holds them. -/
  content : Option Bytes
  deriving DecidableEq, Repr

/-- A symbol of an object file. -/
structure ObjectSymbol where
  /-- Its number. -/
  index : Nat
  /-- Its name, if that is text. -/
  name : Option String
  /-- The number of the section that it is in. -/
  home : Option Nat
  /-- The place that it names. -/
  address : Nat
  /-- The size of what is there. -/
  size : Nat
  /-- Whether it defines what is there. -/
  isDefinition : Bool
  /-- Whether instructions are there. -/
  isCode : Bool
  deriving DecidableEq, Repr

/-- What an object file holds. -/
structure ObjectImage where
  /-- The sections, in the order of the file. -/
  sections : List ObjectSection := []
  /-- The symbols, in the order of the file. -/
  symbols : List ObjectSymbol := []
  deriving DecidableEq, Repr

namespace ObjectImage

/-- The first section of a name. -/
def find? (image : ObjectImage) (name : String) : Option ObjectSection :=
  image.sections.find? fun s => s.name == some name

/-- The symbols in a section. -/
def symbolsIn (image : ObjectImage) (s : ObjectSection) : List ObjectSymbol :=
  image.symbols.filter fun symbol => symbol.home == some s.index

end ObjectImage

/-- A table of names that zero bytes end, which stands between two offsets. -/
structure NameTable where
  /-- The offset of the first name. -/
  start : Nat
  /-- The offset behind the last name. -/
  stop : Nat

namespace NameTable

/-- The name at an offset within the table. -/
def get? (names : NameTable) (bytes : Bytes) (offset : Nat) : Option Bytes :=
  bytes.terminated? (names.start + offset) names.stop

end NameTable
end SourceFilter
