import SourceFilter.SlotTable.Removal
import SourceFilter.Proofs.SlotTable.Placement

/-!
# Removal from slot tables

The walk over a run of used slots only empties tombstones that lie on no chain. What carries this is
that the reach bounds how far the chains of the keys behind the walk extend before it, and that the
walk started at an empty slot, so the chain of any other key would have to pass over that one. A
removal therefore takes away its key alone and keeps a table sound.
-/

namespace SourceFilter.SlotTable

open Slot

variable {capacity : Nat} {V : Type} {buried marks : Vector Mark (slotCount capacity)}
  {stop s : Slot capacity} {key : Nat}

/-- A search for an empty slot ends at one. -/
theorem get_of_seekEmpty {steps : Nat} (h : seekEmpty marks steps s = some stop) :
    marks.get stop = .empty := by
  induction steps generalizing s with
  | zero => cases h
  | succ steps ih =>
    rw [seekEmpty] at h
    split at h
    next hs =>
      cases h
      exact hs
    next => exact ih h

/-- Before a walk that has not ended lies a used slot. -/
theorem Walk.used_previous {w : Walk capacity} (hend : ¬w.atEnd = true) :
    w.marks.get w.slot.previous ≠ .empty :=
  fun he => hend (beq_iff_eq.2 he)

/-- What holds of a walk that started at an empty slot. -/
structure Walk.Safe (buried : Vector Mark (slotCount capacity)) (stop : Slot capacity)
    (w : Walk capacity) : Prop where
  /-- A slot is as it was, or was a tombstone and is empty now. -/
  kept : ∀ s, w.marks.get s = buried.get s ∨
    buried.get s = .tombstone ∧ w.marks.get s = .empty
  /-- No chain of a live key has an empty slot. -/
  unbroken : Unbroken w.marks
  /-- The slot where the walk started is empty. -/
  stopped : w.marks.get stop = .empty
  /-- The chain of a key behind the walk extends at most by the reach before it. -/
  reaches : ∀ ⦃holder key⦄, w.marks.get holder = .live key →
    w.slot.distance holder < w.slot.distance stop →
    (home key).distance holder ≤ w.slot.distance holder + w.reach

namespace Walk.Safe

variable {w : Walk capacity}

/-- The walk does not come back to its start, as it ends at an empty slot. -/
theorem previous_ne (h : w.Safe buried stop) (hnext : w.marks.get w.slot.previous ≠ .empty) :
    w.slot.previous ≠ stop :=
  fun he => hnext (he ▸ h.stopped)

/-- A walk that starts at an empty slot. -/
theorem start (h : Unbroken buried) (hstop : buried.get stop = .empty) :
    Walk.Safe buried stop ⟨stop, 0, buried⟩ := by
  refine ⟨fun i => .inl rfl, h, hstop, ?_⟩
  intro holder key _ hlt
  rw [distance_self] at hlt
  exact absurd hlt (Nat.not_lt_zero _)

/-- A key that is live in the walk was live before. -/
theorem live_iff (h : w.Safe buried stop) :
    w.marks.get s = .live key ↔ buried.get s = .live key := by
  rcases h.kept s with hs | ⟨hb, hs⟩
  · rw [hs]
  · rw [hb, hs]
    constructor <;> exact Mark.noConfusion

/-- No chain passes over the slot before the walk when the reach is used up. -/
theorem not_onChain_previous (h : w.Safe buried stop) (hreach : w.reach = 0)
    {holder : Slot capacity} (hlive : w.marks.get holder = .live key)
    (hne : w.slot.previous ≠ holder) : ¬OnChain key holder w.slot.previous := by
  intro hchain
  rw [OnChain, distance_previous hne] at hchain
  rcases Nat.lt_or_ge (w.slot.distance holder) (w.slot.distance stop) with hlt | hge
  · have hbound := h.reaches hlive hlt
    omega
  · -- The key lies before the walk, so its chain would have to pass over the start of the walk.
    have hstop := distance_lt stop holder
    refine h.unbroken hlive stop ?_ h.stopped
    rw [OnChain]
    rcases distance_add_distance w.slot stop holder with hd | hd <;> omega

/-- The reach of a walk bounds the chains after one slot more, if the new reach makes up for what
the slot adds. -/
theorem reaches_previous (h : w.Safe buried stop) (hne : w.slot.previous ≠ stop) {reach : Nat}
    (hreach : w.reach ≤ reach + 1)
    (hhere : ∀ key, w.marks.get w.slot.previous = .live key →
      (home key).distance w.slot.previous ≤ reach)
    ⦃holder : Slot capacity⦄ ⦃key : Nat⦄ (hlive : w.marks.get holder = .live key)
    (hlt : w.slot.previous.distance holder < w.slot.previous.distance stop) :
    (home key).distance holder ≤ w.slot.previous.distance holder + reach := by
  rw [distance_previous hne] at hlt
  by_cases hp : w.slot.previous = holder
  · subst hp
    rw [distance_self, Nat.zero_add]
    exact hhere key hlive
  · rw [distance_previous hp] at hlt ⊢
    have hbound := h.reaches hlive (by omega)
    omega

/-- A tombstone that no chain passes over may be emptied. -/
theorem clear (h : w.Safe buried stop) (htomb : w.marks.get s = .tombstone) (hne : s ≠ stop)
    (hfree : ∀ ⦃holder key⦄, w.marks.get holder = .live key → ¬OnChain key holder s)
    (hreaches : ∀ ⦃holder key⦄, w.marks.get holder = .live key →
      s.distance holder < s.distance stop →
      (home key).distance holder ≤ s.distance holder + w.reach) :
    Walk.Safe buried stop ⟨s, w.reach, w.marks.set s .empty s.isLt⟩ := by
  have hget (i : Slot capacity) :
      (w.marks.set s .empty).get i = if s = i then .empty else w.marks.get i :=
    get_set w.marks s i _
  have hlive {i : Slot capacity} {key : Nat} (hi : (w.marks.set s .empty).get i = .live key) :
      w.marks.get i = .live key := by
    rw [hget] at hi
    split at hi
    next => cases hi
    next => exact hi
  constructor
  case kept =>
    intro i
    rw [hget]
    split
    next hi =>
      subst hi
      rcases h.kept s with hb | ⟨hb, -⟩
      · exact .inr ⟨hb.symm.trans htomb, rfl⟩
      · exact .inr ⟨hb, rfl⟩
    next => exact h.kept i
  case unbroken =>
    intro holder key hi i hchain
    rw [hget]
    split
    next hs =>
      subst hs
      exact absurd hchain (hfree (hlive hi))
    next => exact h.unbroken (hlive hi) i hchain
  case stopped =>
    rw [hget, if_neg hne]
    exact h.stopped
  case reaches =>
    intro holder key hi
    exact hreaches (hlive hi)

/-- One slot more. -/
theorem step (h : w.Safe buried stop) (hend : w.marks.get w.slot.previous ≠ .empty) :
    w.step.Safe buried stop := by
  have hne : w.slot.previous ≠ stop := h.previous_ne hend
  obtain ⟨slot, reach, marks⟩ := w
  rw [Walk.step]
  cases hm : marks.get slot.previous with
  | empty => exact absurd hm hend
  | live k =>
    have hreach : reach ≤ max (reach - 1) ((home k).distance slot.previous) + 1 := by
      omega
    refine ⟨h.kept, h.unbroken, h.stopped, h.reaches_previous hne hreach fun key hkey => ?_⟩
    cases hm.symm.trans hkey
    exact Nat.le_max_right _ _
  | tombstone =>
    have hnone (key : Nat) : marks.get slot.previous ≠ .live key := by
      rw [hm]
      exact Mark.noConfusion
    have hreaches {next : Nat} (hnext : reach ≤ next + 1) := h.reaches_previous hne hnext
      fun key hkey => absurd hkey (hnone key)
    by_cases hr : reach = 0
    · subst hr
      refine h.clear hm hne ?_ (hreaches (Nat.zero_le 1))
      intro holder key hlive
      have hother : slot.previous ≠ holder := fun he => hnone key (he ▸ hlive)
      exact h.not_onChain_previous rfl hlive hother
    · simp only [if_neg hr]
      have hreach : reach ≤ reach - 1 + 1 := by
        omega
      exact ⟨h.kept, h.unbroken, h.stopped, hreaches hreach⟩

/-- The slots up to an empty one. -/
theorem run (h : w.Safe buried stop) (steps : Nat) : (Walk.run steps w).Safe buried stop := by
  induction steps generalizing w with
  | zero => exact h
  | succ steps ih =>
    rw [Walk.run]
    split
    next => exact h
    next hend => exact ih (h.step (Walk.used_previous hend))

end Walk.Safe

/-- The marks after a tombstone is put into a slot. -/
theorem get_bury (marks : Vector Mark (slotCount capacity)) (s i : Slot capacity) :
    (bury marks s).get i = if s = i then .tombstone else marks.get i :=
  get_set marks s i _

/-- A tombstone in the place of a key breaks no chain. -/
theorem unbroken_bury (h : Unbroken marks) (s : Slot capacity) : Unbroken (bury marks s) := by
  intro holder key hlive i hchain
  rw [get_bury] at hlive ⊢
  split at hlive
  next => cases hlive
  next =>
    split
    next => exact Mark.noConfusion
    next => exact h hlive i hchain

/-- A tombstone takes the place of one key, all others stay. -/
theorem get_bury_iff (marks : Vector Mark (slotCount capacity)) (s i : Slot capacity) (k : Nat) :
    (bury marks s).get i = .live k ↔ s ≠ i ∧ marks.get i = .live k := by
  rw [get_bury]
  by_cases hs : s = i
  · simp [hs]
  · simp [hs]

/-- The walk of the removal of the key in a slot after so many slots, when it starts at an empty
slot. -/
def sweep (marks : Vector Mark (slotCount capacity)) (s stop : Slot capacity) (steps : Nat) :
    Walk capacity :=
  Walk.run steps ⟨stop, 0, bury marks s⟩

/-- The marks at a moment of the removal of the key in a slot: when the tombstone has been put into
the slot, and whenever the walk has visited one slot more. -/
inductive Vacating (marks : Vector Mark (slotCount capacity)) (s : Slot capacity) :
    Vector Mark (slotCount capacity) → Prop where
  /-- The key has given way to a tombstone. -/
  | buried : Vacating marks s (bury marks s)
  /-- The walk has visited so many slots. -/
  | swept {stop : Slot capacity} (steps : Nat)
    (hstop : seekEmpty (bury marks s) (slotCount capacity - 1) s.next = some stop) :
    Vacating marks s (sweep marks s stop steps).marks

/-- The walk of a removal is safe at every slot. -/
theorem Unbroken.sweep_safe (h : Unbroken marks)
    (hstop : seekEmpty (bury marks s) (slotCount capacity - 1) s.next = some stop) (steps : Nat) :
    (sweep marks s stop steps).Safe (bury marks s) stop :=
  (Walk.Safe.start (unbroken_bury h s) (get_of_seekEmpty hstop)).run steps

/-- A removal that finds an empty slot leaves the marks of the walk once around. -/
theorem vacate_eq_sweep
    (hstop : seekEmpty (bury marks s) (slotCount capacity - 1) s.next = some stop) :
    vacate marks s = (sweep marks s stop (slotCount capacity - 1)).marks := by
  rw [vacate]
  simp only [hstop]
  rfl

/-- The last moment of a removal. -/
theorem vacating_vacate (marks : Vector Mark (slotCount capacity)) (s : Slot capacity) :
    Vacating marks s (vacate marks s) := by
  cases hstop : seekEmpty (bury marks s) (slotCount capacity - 1) s.next with
  | none =>
    rw [vacate]
    simp only [hstop]
    exact .buried
  | some stop =>
    rw [vacate_eq_sweep hstop]
    exact .swept (slotCount capacity - 1) hstop

namespace Vacating

variable {now : Vector Mark (slotCount capacity)}

/-- No chain is broken while a key is removed. -/
theorem unbroken (hnow : Vacating marks s now) (h : Unbroken marks) : Unbroken now := by
  cases hnow with
  | buried => exact unbroken_bury h s
  | swept steps hstop => exact (h.sweep_safe hstop steps).unbroken

/-- While a key is removed all others stay in their slots. -/
theorem live_iff (hnow : Vacating marks s now) (h : Unbroken marks) {i : Slot capacity} {k : Nat} :
    now.get i = .live k ↔ s ≠ i ∧ marks.get i = .live k := by
  cases hnow with
  | buried => exact get_bury_iff marks s i k
  | swept steps hstop => exact (h.sweep_safe hstop steps).live_iff.trans (get_bury_iff marks s i k)

end Vacating

/-- What the vacated marks hold: every key but the one in the slot, and no chain is broken. -/
theorem Unbroken.vacate (h : Unbroken marks) (s : Slot capacity) :
    Unbroken (vacate marks s) ∧
      ∀ i k, (vacate marks s).get i = .live k ↔ s ≠ i ∧ marks.get i = .live k :=
  ⟨(vacating_vacate marks s).unbroken h, fun _ _ => (vacating_vacate marks s).live_iff h⟩

/-- The vacated slot is live no more, all others are as they were. -/
theorem Unbroken.liveSlots_vacate (h : Unbroken marks) (s : Slot capacity) :
    liveSlots (SlotTable.vacate marks s) = (liveSlots marks).erase s := by
  ext i
  rw [Finset.mem_erase, mem_liveSlots, mem_liveSlots, ← exists_and_left]
  refine exists_congr fun k => ?_
  rw [(h.vacate s).2 i k, ne_comm]

variable {t : SlotTable capacity V}

/-- Removing a live key takes away this key alone. -/
theorem Sound.remove_of_get?_eq_some (h : t.Sound) {v : V} (hv : t.get? key = some v) :
    ∃ t', t.remove key = (true, t') ∧ t'.Revises t key none ∧ t'.size + 1 = t.size := by
  obtain ⟨s, hs, -⟩ := h.get?_eq_some_iff.1 hv
  obtain ⟨hunbroken, hlive⟩ := h.unbroken.vacate s
  have hmem : s ∈ liveSlots t.marks := mem_liveSlots.2 ⟨key, hs⟩
  have hcount := h.counted
  have hcard := Finset.card_erase_add_one hmem
  rw [remove, h.find?_eq_some_iff.2 hs]
  have hsound : Sound { t with marks := vacate t.marks s, size := t.size - 1 } := by
    refine ⟨fun i j k hi hj => ?_, hunbroken, ?_, ?_⟩
    · exact h.single ((hlive i k).1 hi).2 ((hlive j k).1 hj).2
    · rw [h.unbroken.liveSlots_vacate]
      change t.size - 1 = _
      omega
    · exact Nat.le_trans (Nat.sub_le _ _) h.bounded
  refine ⟨_, rfl, ⟨hsound, funext fun k => Option.ext fun v' => ?_⟩, ?_⟩
  · rw [hsound.get?_eq_some_iff, Function.update_apply]
    simp only [hlive]
    by_cases hk : k = key
    · rw [if_pos hk]
      refine iff_of_false ?_ (by simp)
      rintro ⟨i, ⟨hne, hi⟩, -⟩
      exact hne (h.single hs (hk ▸ hi))
    · rw [if_neg hk, h.get?_eq_some_iff]
      refine exists_congr fun i => and_congr_left' ?_
      refine and_iff_right_of_imp fun hi hsi => hk ?_
      exact Mark.live.inj (hi.symm.trans (hsi ▸ hs))
  · change t.size - 1 + 1 = t.size
    omega

/-- Removing an absent key changes nothing. -/
theorem remove_of_get?_eq_none (hv : t.get? key = none) : t.remove key = (false, t) := by
  rw [remove, find?_eq_none_of_get? hv]

end SourceFilter.SlotTable
