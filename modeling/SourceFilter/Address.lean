import SourceFilter.Text.Split
import SourceFilter.Text.Numeral

/-!
# IPv4 addresses

An address is a 32-bit word, most significant octet first. Its text is four canonical decimal
octets with points between them, and no other text is an address.
-/

namespace SourceFilter

/-- An IPv4 address as the number whose four base-256 digits are its octets. -/
abbrev Address := BitVec 32

namespace Address

/-- The four octets, the most significant first. -/
def octets (a : Address) : List Nat :=
  [a.toNat / 16777216, a.toNat / 65536 % 256, a.toNat / 256 % 256, a.toNat % 256]

/-- The address with these four octets. -/
def ofOctets (a b c d : Nat) : Address :=
  BitVec.ofNat 32 (((a * 256 + b) * 256 + c) * 256 + d)

/-- An octet is below 256. -/
theorem lt_of_mem_octets {a : Address} {n : Nat} (h : n ∈ a.octets) : n < 256 := by
  have := a.isLt
  simp only [octets, List.mem_cons, List.not_mem_nil, or_false] at h
  omega

/-- The address in dotted decimal, as characters. -/
def chars (a : Address) : List Char := Text.join '.' (a.octets.map Text.digits)

/-- The address in dotted decimal. -/
def text (a : Address) : String := String.ofList a.chars

/-- The value of a canonical numeral below 256. -/
def octet? (s : List Char) : Option Nat := (Text.canonical? s).filter (· < 256)

/-- Reads an address in dotted decimal. -/
def parse? (s : List Char) : Option Address :=
  match Text.split '.' s with
  | [a, b, c, d] => do
    return ofOctets (← octet? a) (← octet? b) (← octet? c) (← octet? d)
  | _ => none

end Address
end SourceFilter
