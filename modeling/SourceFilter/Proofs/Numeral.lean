import SourceFilter.Proofs.Text

/-!
# Numerals

A numeral is a text of ASCII digits without a zero in front of others. Reading takes exactly the
numerals and finds their values, and a number is written as a numeral of its value.
-/

namespace SourceFilter.Text

variable {s : List Char} {n : Nat}

/-- A numeral and the number that it stands for. -/
structure Numeral (s : List Char) (n : Nat) : Prop where
  /-- There is a digit. -/
  nonempty : s ≠ []
  /-- There is nothing but ASCII digits. -/
  digits : ∀ c ∈ s, '0' ≤ c ∧ c ≤ '9'
  /-- A zero in front stands alone. -/
  leading : s.head? = some '0' → s = ['0']
  /-- A digit is worth ten times as much as one in the place after it. -/
  value : s.foldl (fun value c => 10 * value + (c.toNat - '0'.toNat)) 0 = n

/-- The ASCII digits are the characters from zero to nine. -/
theorem isDigit_iff {c : Char} : c.isDigit = true ↔ '0' ≤ c ∧ c ≤ '9' := by
  rw [Char.isDigit_iff_toNat]
  exact Iff.rfl

/-- A text is read as a number when it is a numeral that stands for the number. -/
theorem canonical?_eq_some_iff : canonical? s = some n ↔ Numeral s n := by
  have hvalue : digitsValue s = s.foldl (fun value c => 10 * value + (c.toNat - '0'.toNat)) 0 :=
    Nat.ofDigitChars_eq_foldl
  rw [canonical?, Option.ite_none_right_eq_some, Option.some.injEq, hvalue]
  simp only [isDigits, Bool.and_eq_true, Bool.not_eq_true', List.isEmpty_eq_false_iff,
    List.all_eq_true, isDigit_iff, Bool.or_eq_true, bne_iff_ne, beq_iff_eq]
  constructor
  · rintro ⟨⟨⟨hne, hdigits⟩, hleading⟩, hn⟩
    exact ⟨hne, hdigits, fun hzero => hleading.resolve_left (not_not.2 hzero), hn⟩
  · intro h
    refine ⟨⟨⟨h.nonempty, h.digits⟩, ?_⟩, h.value⟩
    by_cases hzero : s.head? = some '0'
    · exact .inr (h.leading hzero)
    · exact .inl hzero

/-- What is no digit does not occur in a numeral. -/
theorem Numeral.notMem (h : Numeral s n) {c : Char} (hc : c.isDigit = false) : c ∉ s := by
  intro hmem
  have hdigit := isDigit_iff.2 (h.digits c hmem)
  rw [hc] at hdigit
  cases hdigit

/-- Only the digits of zero start with a zero. -/
theorem head?_digits (h : 0 < n) : (digits n).head? ≠ some '0' := by
  have hdigit : ∀ d < 10, 0 < d → d.digitChar ≠ '0' := by decide
  induction n using Nat.strong_induction_on with
  | _ n ih =>
    rcases Nat.lt_or_ge n 10 with hlt | hge
    · rw [digits, Nat.toDigits_of_lt_base hlt, List.head?_cons]
      exact fun hzero => hdigit n hlt h (Option.some.inj hzero)
    · have hfront : digits n = digits (n / 10) ++ [(n % 10).digitChar] :=
        Nat.toDigits_of_base_le (by decide) hge
      have hne : digits (n / 10) ≠ [] := Nat.toDigits_ne_nil
      rw [hfront, List.head?_append_of_ne_nil _ hne]
      exact ih (n / 10) (by omega) (by omega)

/-- A number is written as a numeral. -/
theorem numeral_digits (n : Nat) : Numeral (digits n) n := by
  refine ⟨Nat.toDigits_ne_nil, fun c hc => isDigit_iff.1 (isDigit_of_mem_digits hc), ?_, ?_⟩
  · intro hzero
    rcases Nat.eq_zero_or_pos n with rfl | hpos
    · rfl
    · exact absurd hzero (head?_digits hpos)
  · rw [← Nat.ofDigitChars_eq_foldl]
    exact digitsValue_digits n

end SourceFilter.Text
