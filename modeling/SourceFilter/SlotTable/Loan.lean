import SourceFilter.SlotTable.Basic

/-!
# Loans from slot tables

A reader that looks at a value while the table may change takes a loan: the value together with
the slot it came from. Settling the loan gives the value only if that slot still holds the key, so
a slot that was meanwhile given to another key never lends its value to the first one.
-/

namespace SourceFilter

/-- A value read from a slot. -/
structure Loan (capacity : Nat) (V : Type) where
  /-- The key that was looked for. -/
  key : Nat
  /-- The slot that held it. -/
  slot : Slot capacity
  /-- The value that was read there. -/
  value : V

namespace SlotTable

variable {capacity : Nat} {V : Type}

/-- Reads the value of a key. -/
def lend? (t : SlotTable capacity V) (key : Nat) : Option (Loan capacity V) :=
  (t.find? key).map fun s => ⟨key, s, t.values.get s⟩

/-- The value of a loan, if its slot still holds its key. -/
def settle? (t : SlotTable capacity V) (loan : Loan capacity V) : Option V :=
  if t.marks.get loan.slot = .live loan.key then some loan.value else none

/-- A loan that is settled at once gives the value of its key. -/
theorem settle?_of_lend? {t : SlotTable capacity V} {key : Nat} {loan : Loan capacity V}
    (h : t.lend? key = some loan) : t.settle? loan = t.get? key := by
  obtain ⟨s, hs, rfl⟩ := Option.map_eq_some_iff.1 h
  simp [settle?, get?, hs, get_of_find? hs]

end SlotTable
end SourceFilter
