import SourceFilter.SlotTable.Basic

/-!
# Removing keys from slot tables

A removed key first leaves a tombstone. Then the run of used slots around it is walked backwards
from its end, and every tombstone that no search for a live key passes over becomes empty again.
The walk changes one slot at a time and never moves a key, so a search that runs in between still
finds every live key.
-/

namespace SourceFilter.SlotTable

variable {capacity : Nat} {V : Type}

/-- The first empty slot within a number of steps. -/
def seekEmpty (marks : Vector Mark (slotCount capacity)) :
    Nat → Slot capacity → Option (Slot capacity)
  | 0, _ => none
  | steps + 1, s => if marks.get s = .empty then some s else seekEmpty marks steps s.next

/-- A walk backwards over a run of used slots. -/
structure Walk (capacity : Nat) where
  /-- The slot that was visited last. -/
  slot : Slot capacity
  /-- Over how many of the slots before it the search for a live key behind them passes. -/
  reach : Nat
  /-- The marks as the walk leaves them so far. -/
  marks : Vector Mark (slotCount capacity)

namespace Walk

/-- Whether the slot before is empty, which ends the walk. -/
def atEnd (w : Walk capacity) : Bool := w.marks.get w.slot.previous == .empty

/-- Visits the slot before: a tombstone out of reach becomes empty, and a live key may extend the
reach. -/
def step : Walk capacity → Walk capacity
  | ⟨slot, reach, marks⟩ =>
    match marks.get slot.previous with
    | .live key =>
      ⟨slot.previous, max (reach - 1) ((Slot.home key).distance slot.previous), marks⟩
    | _ =>
      if reach = 0 then ⟨slot.previous, 0, marks.set slot.previous .empty⟩
      else ⟨slot.previous, reach - 1, marks⟩

/-- Visits so many slots, or all up to an empty one. -/
def run : Nat → Walk capacity → Walk capacity
  | 0, w => w
  | steps + 1, w => if w.atEnd then w else run steps w.step

/-- Going on after some steps is going all the steps at once. -/
theorem run_add (m n : Nat) (w : Walk capacity) : run (m + n) w = run n (run m w) := by
  induction m generalizing w with
  | zero => rw [Nat.zero_add, run]
  | succ m ih =>
    rw [Nat.succ_add, run, run]
    by_cases h : w.atEnd
    · rw [if_pos h, if_pos h]
      cases n with
      | zero => rw [run]
      | succ n => rw [run, if_pos h]
    · rw [if_neg h, if_neg h]
      exact ih w.step

end Walk

/-- The marks after the key in a slot is gone. -/
def vacate (marks : Vector Mark (slotCount capacity)) (s : Slot capacity) :
    Vector Mark (slotCount capacity) :=
  let buried := bury marks s
  match seekEmpty buried (slotCount capacity - 1) s.next with
  | none => buried
  | some stop => (Walk.run (slotCount capacity - 1) ⟨stop, 0, buried⟩).marks

/-- Removes a key; tells whether it was there. -/
def remove (t : SlotTable capacity V) (key : Nat) : Bool × SlotTable capacity V :=
  match t.find? key with
  | none => (false, t)
  | some s => (true, { t with marks := vacate t.marks s, size := t.size - 1 })

end SourceFilter.SlotTable
