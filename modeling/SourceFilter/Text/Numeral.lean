/-!
# Decimal numerals

Numbers are written with the fewest decimal digits. A canonical numeral is exactly what writing
produces: it has no sign and no leading zero. A lax numeral may have leading zeros and a plus
sign; those are accepted on the command line.
-/

namespace SourceFilter.Text

/-- The decimal digits of a number. -/
def digits (n : Nat) : List Char := Nat.toDigits 10 n

/-- The number in decimal, as a string. -/
def decimal (n : Nat) : String := String.ofList (digits n)

/-- One hexadecimal digit. -/
def hexDigit (n : Nat) : Char := if n < 10 then Char.ofNat (48 + n) else Char.ofNat (87 + n)

/-- Digits only, at least one of them. -/
def isDigits (s : List Char) : Bool := !s.isEmpty && s.all Char.isDigit

/-- The value of a text of decimal digits. -/
def digitsValue (s : List Char) : Nat := Nat.ofDigitChars 10 s 0

/-- Writing a number and taking the value gives the number back. -/
theorem digitsValue_digits (n : Nat) : digitsValue (digits n) = n := by
  simp [digitsValue, digits]

/-- The value of a numeral without sign and without leading zero. -/
def canonical? (s : List Char) : Option Nat :=
  if isDigits s && (s.head? != some '0' || s == ['0']) then some (digitsValue s) else none

/-- The value of a numeral that may have leading zeros and one plus sign in front. -/
def lax? : List Char → Option Nat
  | '+' :: s => if isDigits s then some (digitsValue s) else none
  | s => if isDigits s then some (digitsValue s) else none

end SourceFilter.Text
