import SourceFilter.Kernel.ObjectFormat.Coff
import SourceFilter.Kernel.ObjectFormat.Elf
import SourceFilter.Kernel.ObjectFormat.MachO

/-!
# Formats of object files

An object file is known by the bytes that it starts with. There are several formats, some with
narrow and wide forms and with either order of bytes. A file whose tables reach beyond its end is
none of its format.
-/

namespace SourceFilter

/-- A format of object files. -/
inductive ObjectFormat where
  /-- The format for linking and execution, of 32 or 64 bits. -/
  | elf (wide big : Bool)
  /-- A list of load commands, for 32 or 64 bits. -/
  | machO (wide big : Bool)
  /-- A portable executable, which starts as a program for an older system. -/
  | portable
  /-- The common format. -/
  | coff
  /-- The common format with room for more sections. -/
  | bigCoff
  /-- The common format in its extended form, for 32 or 64 bits. -/
  | extendedCoff (wide : Bool)
  deriving DecidableEq, Repr

namespace ObjectFormat

/-- The least number of bytes that a format is known by. -/
def signatureSize : Nat := 16

/-- The starts of files in the common format: the numbers of the machines it is for. -/
def coffMachines : List Bytes :=
  [[0xC4, 0x01], [0x64, 0xAA], [0x41, 0xA6], [0x4C, 0x01], [0x64, 0x86]]

/-- The class of files in the common format with room for more sections, at offset 12 of them. -/
def bigCoffClass : Bytes :=
  [0xC7, 0xA1, 0xBA, 0xD1, 0xEE, 0xBA, 0xA9, 0x4B, 0xAF, 0x20, 0xFA, 0xF6, 0x6A, 0xA4, 0xDC, 0xB8]

/-- The format of a file by its first bytes. -/
def ofStart? (bytes : Bytes) : Option ObjectFormat :=
  if bytes.length < signatureSize then none
  else
    match bytes with
    | 0x7F :: 0x45 :: 0x4C :: 0x46 :: kind :: order :: _ =>
      if (kind = 1 ∨ kind = 2) ∧ (order = 1 ∨ order = 2) then
        some (.elf (kind = 2) (order = 2))
      else none
    | 0xFE :: 0xED :: 0xFA :: 0xCE :: _ => some (.machO false true)
    | 0xCE :: 0xFA :: 0xED :: 0xFE :: _ => some (.machO false false)
    | 0xFE :: 0xED :: 0xFA :: 0xCF :: _ => some (.machO true true)
    | 0xCF :: 0xFA :: 0xED :: 0xFE :: _ => some (.machO true false)
    | 0x4D :: 0x5A :: _ => some .portable
    | 0x00 :: 0x00 :: 0xFF :: 0xFF :: 0x02 :: 0x00 :: _ =>
      if bytes.slice? 12 16 = some bigCoffClass then some .bigCoff else none
    | 0x01 :: 0xDF :: _ => some (.extendedCoff false)
    | 0x01 :: 0xF7 :: _ => some (.extendedCoff true)
    | a :: b :: _ => if coffMachines.contains [a, b] then some .coff else none
    | _ => none

/-- What a file of a format holds. -/
def image? (bytes : Bytes) : ObjectFormat → Option ObjectImage
  | .elf wide big => Elf.read? bytes wide big
  | .machO wide big => MachO.read? bytes wide big
  | .portable => Coff.readPortable? bytes
  | .coff => Coff.read? bytes
  | .bigCoff => Coff.readBig? bytes
  | .extendedCoff wide => Coff.readExtended? bytes wide

/-- What a file holds, in the format that its first bytes say. -/
def read? (bytes : Bytes) : Option ObjectImage := do
  image? bytes (← ofStart? bytes)

end ObjectFormat
end SourceFilter
