import SourceFilter.Text.Numeral

/-!
# Text on a terminal

Some control characters steer a terminal: they ring its bell, move its cursor, or start a command
to it. Text from outside is shown with these characters spelled by their numbers, and with all
others as they are. What is shown holds no character that steers a terminal.
-/

namespace SourceFilter.Text

/-- Whether a character steers a terminal: the bell, backspace, form feed, escape and delete do, and
so do the control characters beyond ASCII. -/
def steersTerminal (c : Char) : Bool :=
  [0x07, 0x08, 0x0C, 0x1B, 0x7F].contains c.toNat || (0x80 ≤ c.toNat && c.toNat ≤ 0x9F)

/-- A character as it is shown. -/
def shownChar (c : Char) : List Char :=
  let n := c.toNat
  if !steersTerminal c then [c]
  else if n < 0x80 then ['\\', 'x', hexDigit (n / 16), hexDigit (n % 16)]
  else ['\\', 'u', '\x7b', hexDigit (n / 16), hexDigit (n % 16), '\x7d']

/-- A text as it is shown. -/
def shown (s : List Char) : List Char := s.flatMap shownChar

/-- No hexadecimal digit steers a terminal. -/
theorem steersTerminal_hexDigit {n : Nat} (h : n < 16) : steersTerminal (hexDigit n) = false := by
  revert h
  revert n
  decide

/-- What a character is shown as does not steer a terminal. -/
theorem steersTerminal_of_mem_shownChar {c d : Char} (h : d ∈ shownChar c) :
    steersTerminal d = false := by
  rw [shownChar] at h
  split at h
  next hc => simp_all
  next hc =>
    have hn : c.toNat / 16 < 16 := by
      simp [steersTerminal] at hc
      omega
    have hm : c.toNat % 16 < 16 := Nat.mod_lt _ (by omega)
    split at h <;> simp only [List.mem_cons, List.not_mem_nil, or_false] at h
    · rcases h with rfl | rfl | rfl | rfl
      · decide
      · decide
      · exact steersTerminal_hexDigit hn
      · exact steersTerminal_hexDigit hm
    · rcases h with rfl | rfl | rfl | rfl | rfl | rfl
      · decide
      · decide
      · decide
      · exact steersTerminal_hexDigit hn
      · exact steersTerminal_hexDigit hm
      · decide

/-- What is shown does not steer a terminal. -/
theorem steersTerminal_of_mem_shown {s : List Char} {d : Char} (h : d ∈ shown s) :
    steersTerminal d = false := by
  obtain ⟨c, _, hd⟩ := List.mem_flatMap.1 h
  exact steersTerminal_of_mem_shownChar hd

end SourceFilter.Text
