import SourceFilter.Address

/-!
# Numbers and text as bytes

Map values hold numbers with the least significant byte first; addresses in map keys have the most
significant byte first. Files hold numbers in either order, at offsets, and text that a zero byte
ends.
-/

namespace SourceFilter

/-- A string of bytes. -/
abbrev Bytes := List UInt8

namespace Bytes

/-- A number in so many bytes, the least significant one first. -/
def ofNat : Nat → Nat → Bytes
  | 0, _ => []
  | width + 1, n => UInt8.ofNat n :: ofNat width (n / 256)

/-- The number whose least significant byte comes first. -/
def toNat : Bytes → Nat
  | [] => 0
  | b :: rest => b.toNat + 256 * toNat rest

/-- A number that fits its bytes is read back. -/
theorem toNat_ofNat (width n : Nat) (h : n < 1 <<< (8 * width)) : toNat (ofNat width n) = n := by
  rw [Nat.one_shiftLeft, Nat.pow_mul] at h
  induction width generalizing n with
  | zero => simp [ofNat, toNat]; omega
  | succ width ih =>
    rw [Nat.pow_succ] at h
    simp only [ofNat, toNat, UInt8.toNat_ofNat']
    rw [ih (n / 256) (by omega)]
    omega

/-- An address, the most significant byte first. -/
def ofAddress (a : Address) : Bytes := a.octets.map UInt8.ofNat

/-- The address whose most significant byte comes first. -/
def toAddress (bytes : Bytes) : Address := BitVec.ofNat 32 (toNat bytes.reverse)

/-- The bytes at an offset, if there are that many. -/
def slice? (bytes : Bytes) (offset size : Nat) : Option Bytes :=
  if offset + size ≤ bytes.length then some ((bytes.drop offset).take size) else none

/-- The number in so many bytes at an offset, the most significant byte first if `big`. -/
def number? (bytes : Bytes) (big : Bool) (offset width : Nat) : Option Nat :=
  (bytes.slice? offset width).map fun part => toNat (if big then part.reverse else part)

/-- Whether a table of so many entries of a size lies within the bytes. -/
def holdsTable (bytes : Bytes) (offset count size : Nat) : Bool :=
  offset + count * size ≤ bytes.length

/-- So many pieces of a size. -/
def pieces (size : Nat) : Nat → Bytes → List Bytes
  | 0, _ => []
  | count + 1, bytes => bytes.take size :: pieces size count (bytes.drop size)

/-- The entries of a table, if it lies within the bytes. -/
def table? (bytes : Bytes) (offset count size : Nat) : Option (List Bytes) :=
  if bytes.holdsTable offset count size then some (pieces size count (bytes.drop offset)) else none

/-- What stands before the first zero byte, or everything. -/
def untilZero (bytes : Bytes) : Bytes := bytes.takeWhile fun b => b ≠ 0

/-- The bytes from an offset to a zero byte in front of another offset. -/
def terminated? (bytes : Bytes) (start stop : Nat) : Option Bytes :=
  if start ≤ stop then
    match bytes.slice? start (stop - start) with
    | some part => if part.contains 0 then some part.untilZero else none
    | none => none
  else none

/-- The text that the bytes encode. -/
def text? (bytes : Bytes) : Option String := String.fromUTF8? ⟨bytes.toArray⟩

/-- The bytes that encode a text. -/
def ofText (s : String) : Bytes := s.toUTF8.data.toList

end Bytes
end SourceFilter
