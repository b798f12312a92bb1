import SourceFilter.Proofs.SlotTable.Removal

/-!
# Runs of used slots

Used slots that follow each other around the ring form a run. The chain of a key stays inside the
run of its slot. A removal starts its walk at the first empty slot behind the run of the removed
key.
-/

namespace SourceFilter.SlotTable

open Slot

variable {capacity : Nat} {marks : Vector Mark (slotCount capacity)} {stop s i : Slot capacity}
  {key : Nat}

/-- The slot of a key is used. -/
theorem used_of_live (hs : marks.get s = .live key) : marks.get s ≠ .empty := by
  rw [hs]
  exact Mark.noConfusion

/-- All slots from one slot onwards to another are used. -/
def UsedBetween (marks : Vector Mark (slotCount capacity)) (first last : Slot capacity) : Prop :=
  ∀ i : Slot capacity, i.distance last ≤ first.distance last → marks.get i ≠ .empty

/-- A slot belongs to the run of used slots around another one when all slots on the way from one of
them to the other are used. -/
def InRun (marks : Vector Mark (slotCount capacity)) (s i : Slot capacity) : Prop :=
  UsedBetween marks s i ∨ UsedBetween marks i s

instance (marks : Vector Mark (slotCount capacity)) (first last : Slot capacity) :
    Decidable (UsedBetween marks first last) :=
  inferInstanceAs (Decidable (∀ i : Slot capacity, i.distance last ≤ first.distance last →
    marks.get i ≠ .empty))

instance (marks : Vector Mark (slotCount capacity)) (s i : Slot capacity) :
    Decidable (InRun marks s i) :=
  inferInstanceAs (Decidable (_ ∨ _))

/-- The slots of a run are used. -/
theorem InRun.used (h : InRun marks s i) : marks.get i ≠ .empty := by
  rcases h with h | h
  · refine h i ?_
    rw [distance_self]
    exact Nat.zero_le _
  · exact h i (Nat.le_refl _)

/-- A used slot belongs to its own run. -/
theorem inRun_self (hs : marks.get s ≠ .empty) : InRun marks s s := by
  refine .inl fun i hi => ?_
  rw [distance_self] at hi
  have he : i = s := eq_of_distance_eq_zero (Nat.le_zero.1 hi)
  rwa [he]

/-- The chain of a key stays inside the run of its slot. -/
theorem Unbroken.inRun (h : Unbroken marks) (hs : marks.get s = .live key)
    (hchain : OnChain key s i) : InRun marks s i :=
  .inr fun j hj => h hs j (Nat.le_trans hj hchain)

/-- A tombstone in the place of a key does not change the run. -/
theorem inRun_bury (hs : marks.get s ≠ .empty) : InRun (bury marks s) s i ↔ InRun marks s i := by
  have hused (j : Slot capacity) : (bury marks s).get j ≠ .empty ↔ marks.get j ≠ .empty := by
    rw [get_bury]
    split
    next he => exact iff_of_true Mark.noConfusion (he ▸ hs)
    next => exact Iff.rfl
  simp only [InRun, UsedBetween, hused]

/-- All slots from a slot on are used up to another one, which itself need not be. -/
def UsedUpTo (marks : Vector Mark (slotCount capacity)) (stop first : Slot capacity) : Prop :=
  ∀ i : Slot capacity, i.distance stop ≤ first.distance stop → i ≠ stop → marks.get i ≠ .empty

/-- A slot that is nearer to the end has only used ones up to it, too. -/
theorem UsedUpTo.mono {first last : Slot capacity} (h : UsedUpTo marks stop first)
    (hle : last.distance stop ≤ first.distance stop) : UsedUpTo marks stop last :=
  fun i hi hne => h i (Nat.le_trans hi hle) hne

/-- From a slot with only used ones up to the end, all slots to one that is nearer to the end are
used. -/
theorem UsedUpTo.between {first last : Slot capacity} (h : UsedUpTo marks stop first)
    (hle : last.distance stop ≤ first.distance stop) (hne : last ≠ stop) :
    UsedBetween marks first last := by
  intro i hi
  obtain ⟨hafter, hbefore⟩ := distance_between hle hi
  have hpos : last.distance stop ≠ 0 := fun h0 => hne (eq_of_distance_eq_zero h0)
  refine h i hbefore ?_
  rintro rfl
  rw [distance_self] at hafter
  omega

/-- Slots with only used ones up to the same end belong to one run. -/
theorem UsedUpTo.inRun (hs : UsedUpTo marks stop s) (hi : UsedUpTo marks stop i) (hsne : s ≠ stop)
    (hine : i ≠ stop) : InRun marks s i := by
  rcases Nat.le_total (i.distance stop) (s.distance stop) with hle | hle
  · exact .inl (hs.between hle hine)
  · exact .inr (hi.between hle hsne)

/-- A slot that comes before the end belongs to the run when all slots from there on are used. -/
theorem UsedUpTo.inRun_of_distance_lt {first holder : Slot capacity} (hs : UsedUpTo marks stop s)
    (h : UsedUpTo marks stop first) (hsne : s ≠ stop)
    (hlt : first.distance holder < first.distance stop) : InRun marks s holder := by
  have hne : holder ≠ stop := by
    rintro rfl
    exact Nat.lt_irrefl _ hlt
  exact hs.inRun (h.mono (distance_le_of_distance_lt hlt)) hsne hne

/-- A search for an empty slot ends at the first one on the way. -/
theorem firstFree_seekEmpty (marks : Vector Mark (slotCount capacity)) (steps : Nat)
    (s : Slot capacity) : FirstFree false marks steps s (seekEmpty marks steps s) := by
  induction steps generalizing s with
  | zero => exact fun i hi => absurd hi (Nat.not_lt_zero i)
  | succ steps ih =>
    rw [seekEmpty]
    split
    next hs =>
      exact ⟨.inl hs, 0, Nat.succ_pos steps, (ahead_zero s).symm,
        fun i hi => absurd hi (Nat.not_lt_zero i)⟩
    next hs =>
      have hfree : ¬(marks.get s).Free false := by simp [Mark.Free, hs]
      exact (ih s.next).of_next hfree

/-- From a used slot on, all slots up to the first empty one behind it are used. -/
theorem usedUpTo_of_seekEmpty (hs : marks.get s ≠ .empty)
    (hstop : seekEmpty marks (slotCount capacity - 1) s.next = some stop) :
    UsedUpTo marks stop s := by
  have hfirst := firstFree_seekEmpty marks (slotCount capacity - 1) s.next
  rw [hstop] at hfirst
  obtain ⟨-, d, hd, rfl, hclear⟩ := hfirst
  intro i hi hne
  have hdist : s.distance (s.next.ahead d) = d + 1 := by
    rw [ahead_next, distance_ahead s (by omega)]
  have hpos : i.distance (s.next.ahead d) ≠ 0 := fun h0 => hne (eq_of_distance_eq_zero h0)
  have hsum := distance_add_distance_of_le hi
  have hahead := ahead_distance s i
  cases hsteps : s.distance i with
  | zero =>
    rw [hsteps, ahead_zero] at hahead
    exact hahead ▸ hs
  | succ steps =>
    rw [hsteps, ← ahead_next] at hahead
    exact hahead ▸ hclear steps (by omega)

/-- With an empty slot elsewhere, the search for one from the slot after this one finds one before
it comes back. -/
theorem exists_seekEmpty (hs : marks.get s ≠ .empty) (hempty : ∃ e, marks.get e = .empty) :
    ∃ stop, seekEmpty marks (slotCount capacity - 1) s.next = some stop := by
  have hfirst := firstFree_seekEmpty marks (slotCount capacity - 1) s.next
  cases hseek : seekEmpty marks (slotCount capacity - 1) s.next with
  | some stop => exact ⟨stop, rfl⟩
  | none =>
    obtain ⟨e, he⟩ := hempty
    have hlt := distance_lt s e
    have hpos : s.distance e ≠ 0 := fun h0 => hs (eq_of_distance_eq_zero h0 ▸ he)
    have hahead : marks.get (s.next.ahead (s.distance e - 1)) = .empty := by
      rw [ahead_next, Nat.sub_add_cancel (Nat.pos_of_ne_zero hpos), ahead_distance, he]
    rw [hseek] at hfirst
    exact absurd (.inl hahead) (hfirst (s.distance e - 1) (by omega))

/-- A slot with a tombstone is used. -/
theorem used_bury (marks : Vector Mark (slotCount capacity)) (s : Slot capacity) :
    (bury marks s).get s ≠ .empty := by
  rw [get_bury, if_pos rfl]
  exact Mark.noConfusion

/-- A removal finds an empty slot unless there was none. -/
theorem exists_seekEmpty_bury (hs : marks.get s ≠ .empty) (hempty : ∃ e, marks.get e = .empty) :
    ∃ stop, seekEmpty (bury marks s) (slotCount capacity - 1) s.next = some stop := by
  obtain ⟨e, he⟩ := hempty
  have hne : s ≠ e := fun heq => hs (heq ▸ he)
  exact exists_seekEmpty (used_bury marks s) ⟨e, by rw [get_bury, if_neg hne, he]⟩

/-- The empty slot that a removal finds is another one. -/
theorem ne_of_seekEmpty_bury {steps : Nat} {first : Slot capacity}
    (hstop : seekEmpty (bury marks s) steps first = some stop) : s ≠ stop := by
  rintro rfl
  exact used_bury marks s (get_of_seekEmpty hstop)

end SourceFilter.SlotTable
