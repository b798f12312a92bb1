import SourceFilter.Proofs.SlotTable.Cleanup
import SourceFilter.Proofs.SlotTable.Dictionary

/-!
# Tombstones that are needed

As long as a slot of a table is empty, every tombstone is needed, and a table that has lost its last
key is as good as new. Once the last empty slot is used up, removals leave tombstones that nothing
needs, and no slot is ever empty again.
-/

namespace SourceFilter.SlotTable

open Slot

variable {capacity : Nat} {V : Type} {marks : Vector Mark (slotCount capacity)}
  {s : Slot capacity} {key : Nat}

/-- No slot is empty. -/
def Crowded (marks : Vector Mark (slotCount capacity)) : Prop :=
  ∀ s : Slot capacity, marks.get s ≠ .empty

/-- A mark that is not empty leaves no slot empty. -/
theorem Crowded.set (h : Crowded marks) (s : Slot capacity) {m : Mark} (hm : m ≠ .empty) :
    Crowded (marks.set s m s.isLt) := by
  intro i
  rw [get_set]
  split
  next => exact hm
  next => exact h i

/-- What a request may do to the marks. -/
inductive Change (marks : Vector Mark (slotCount capacity)) :
    Vector Mark (slotCount capacity) → Prop where
  /-- Nothing. -/
  | nothing : Change marks marks
  /-- A key takes a free slot. -/
  | taken (s : Slot capacity) (key : Nat) (hfree : (marks.get s).Free true) :
    Change marks (marks.set s (.live key) s.isLt)
  /-- The slot of a key is vacated. -/
  | vacated (s : Slot capacity) (key : Nat) (hlive : marks.get s = .live key) :
    Change marks (vacate marks s)

namespace Change

variable {marks' : Vector Mark (slotCount capacity)}

/-- No request makes a slot empty again when none is. -/
theorem crowded (h : Change marks marks') (hc : Crowded marks) : Crowded marks' := by
  cases h with
  | nothing => exact hc
  | taken s key hfree => exact hc.set s Mark.noConfusion
  | vacated s key hlive =>
    have hburied : Crowded (bury marks s) := hc.set s Mark.noConfusion
    rw [vacate]
    cases hseek : seekEmpty (bury marks s) (slotCount capacity - 1) s.next with
    | none => exact hburied
    | some stop => exact absurd (get_of_seekEmpty hseek) (hburied stop)

/-- Where a slot is empty, a request leaves only tombstones that are needed. -/
theorem covered (h : Change marks marks') (hunbroken : Unbroken marks) (hc : Covered marks)
    (hempty : ∃ e, marks.get e = .empty) : Covered marks' := by
  cases h with
  | nothing => exact hc
  | vacated s key hlive => exact hc.vacate hunbroken hlive hempty
  | taken s key hfree =>
    intro i htomb
    rw [get_set] at htomb
    split at htomb
    next => cases htomb
    next =>
      refine (hc i htomb).of_live fun holder k hkey => ?_
      have hne : s ≠ holder := by
        intro he
        rcases hfree with hm | ⟨-, hm⟩ <;> cases hkey.symm.trans (he ▸ hm)
      rw [get_set, if_neg hne, hkey]

end Change

/-- A search for a place ends at a free slot. -/
theorem free_of_landing {reuse : Bool} {t : SlotTable capacity V}
    (h : t.landing reuse key = .absent (some s)) : (t.marks.get s).Free reuse := by
  cases hfind : t.find? key with
  | some found => cases (landing_of_find?_eq_some reuse hfind).symm.trans h
  | none =>
    rcases landing_of_find?_eq_none reuse hfind with ⟨place, hplace, hfree⟩ | ⟨hnone, -⟩
    · cases hplace.symm.trans h
      exact hfree.free
    · cases hnone.symm.trans h

/-- In a sound table without keys no slot is live. -/
theorem Sound.not_live {t : SlotTable capacity V} (h : t.Sound) (hsize : t.size = 0)
    (s : Slot capacity) (key : Nat) : t.marks.get s ≠ .live key := by
  have hnone : liveSlots t.marks = ∅ := Finset.card_eq_zero.1 (h.counted.symm.trans hsize)
  intro hlive
  have hmem : s ∈ liveSlots t.marks := mem_liveSlots.2 ⟨key, hlive⟩
  rw [hnone] at hmem
  exact absurd hmem (Finset.notMem_empty s)

/-- Removing a key vacates its slot. -/
theorem change_remove (t : SlotTable capacity V) (key : Nat) :
    Change t.marks (t.remove key).2.marks := by
  rw [remove]
  split
  next => exact .nothing
  next s hs => exact .vacated s key (get_of_find? hs)

section Serve

variable [Inhabited V]

/-- Adding a key changes at most the mark of the slot it takes. -/
theorem marks_put (t : SlotTable capacity V) (key : Nat) (init : V → V) :
    (t.put key init).2.marks = t.marks ∨ ∃ s, (t.marks.get s).Free true ∧
      (t.put key init).2.marks = t.marks.set s (.live key) s.isLt := by
  rw [put]
  split
  next => exact .inl rfl
  next => exact .inl rfl
  next s hs =>
    split
    next => exact .inl rfl
    next => exact .inr ⟨s, free_of_landing hs, rfl⟩

/-- Adding a key is a change that a request may make. -/
theorem change_put (t : SlotTable capacity V) (key : Nat) (init : V → V) :
    Change t.marks (t.put key init).2.marks := by
  rcases marks_put t key init with h | ⟨s, hfree, h⟩
  · rw [h]
    exact .nothing
  · rw [h]
    exact .taken s key hfree

/-- What every request does to the marks. -/
theorem change_serve (t : SlotTable capacity V) (request : Request V) :
    Change t.marks (t.serve request).2.marks := by
  cases request with
  | put key init => exact change_put t key init
  | remove key => exact change_remove t key
  | get key => exact .nothing
  | read key => exact .nothing
  | contains key => exact .nothing
  | modify key f =>
    rw [serve, modify]
    dsimp only
    split
    next => exact .nothing
    next => exact .nothing
  | entries => exact .nothing
  | size => exact .nothing

/-- What holds of the marks of a table at all times. -/
def Tidy (t : SlotTable capacity V) : Prop := Covered t.marks ∨ Crowded t.marks

/-- A request keeps the tombstones needed, or uses up the last empty slot. -/
theorem Sound.tidy_serve {t : SlotTable capacity V} (h : t.Sound) (ht : t.Tidy)
    (request : Request V) : (t.serve request).2.Tidy := by
  have hchange := change_serve t request
  by_cases hempty : ∃ e, t.marks.get e = .empty
  · rcases ht with hc | hc
    · exact .inl (hchange.covered h.unbroken hc hempty)
    · obtain ⟨e, he⟩ := hempty
      exact absurd he (hc e)
  · have hcrowded : Crowded t.marks := fun s hs => hempty ⟨s, hs⟩
    exact .inr (hchange.crowded hcrowded)

/-- No run makes a slot empty again when none is. -/
theorem crowded_run {t : SlotTable capacity V} (h : Crowded t.marks) (requests : List (Request V)) :
    Crowded (runAll serve requests t).2.marks :=
  runAll_invariant (fun request t h => (change_serve t request).crowded h) h requests

/-- After every run a new table is sound and tidy. -/
theorem tidy_run (capacity : Nat) (requests : List (Request V)) :
    (runAll serve requests (empty : SlotTable capacity V)).2.Sound ∧
      (runAll serve requests (empty : SlotTable capacity V)).2.Tidy := by
  have hstart : Covered (empty : SlotTable capacity V).marks := fun s hs =>
    absurd hs (pristine_empty.unburied s)
  obtain ⟨-, hholds, htidy⟩ := runAll_simulation
    (R := fun (t : SlotTable capacity V) (m : Dictionary V) => t.Holds m ∧ t.Tidy)
    (fun request t m h => ⟨(h.1.serve request).1, (h.1.serve request).2,
      h.1.sound.tidy_serve h.2 request⟩)
    ⟨Holds.empty, .inl hstart⟩ requests
  exact ⟨hholds.sound, htidy⟩

/-- As long as a slot is empty, every tombstone lies on the chain of a live key, so without keys all
slots are empty again. A run that uses up the last empty slot ends this for good: no request makes a
slot empty again, and without keys all slots are tombstones that nothing needs. -/
theorem tombstones_needed_until_crowded (capacity : Nat) (requests : List (Request V)) :
    let t := (runAll serve requests (empty : SlotTable capacity V)).2
    ((∃ s, t.marks.get s = .empty) →
      Covered t.marks ∧ (t.size = 0 → ∀ s, t.marks.get s = .empty)) ∧
    (Crowded t.marks →
      (t.size = 0 → ∀ s, t.marks.get s = .tombstone ∧ ¬Needed t.marks s) ∧
      ∀ later, Crowded (runAll serve later t).2.marks) := by
  intro t
  obtain ⟨hsound, htidy⟩ := tidy_run capacity requests
  have hdead (hsize : t.size = 0) (s : Slot capacity) : ¬Needed t.marks s := by
    intro hneeded
    obtain ⟨holder, key, hlive, -⟩ := hneeded
    exact hsound.not_live hsize holder key hlive
  constructor
  · intro hempty
    have hcovered : Covered t.marks := by
      rcases htidy with hc | hc
      · exact hc
      · obtain ⟨e, he⟩ := hempty
        exact absurd he (hc e)
    refine ⟨hcovered, fun hsize s => ?_⟩
    cases hm : t.marks.get s with
    | empty => rfl
    | tombstone => exact absurd (hcovered s hm) (hdead hsize s)
    | live key => exact absurd hm (hsound.not_live hsize s key)
  · intro hcrowded
    refine ⟨fun hsize s => ⟨?_, hdead hsize s⟩, crowded_run hcrowded⟩
    cases hm : t.marks.get s with
    | empty => exact absurd hm (hcrowded s)
    | tombstone => rfl
    | live key => exact absurd hm (hsound.not_live hsize s key)

end Serve

/-- The first of two keys with one home leaves a tombstone, which the search for the second needs.
-/
theorem tombstone_needed_by_second_key :
    let t := (runAll serve [.put 5 id, .put 13 id, .remove 5] (empty : SlotTable 4 Unit)).2
    t.marks.get (Slot.home 5) = .tombstone ∧ t.marks.get (Slot.home 13).previous = .empty ∧
      Needed t.marks (Slot.home 5) := by
  have htomb : (runAll serve [.put 5 id, .put 13 id, .remove 5]
      (empty : SlotTable 4 Unit)).2.marks.get (Slot.home 5) = .tombstone := by decide
  have hempty : (runAll serve [.put 5 id, .put 13 id, .remove 5]
      (empty : SlotTable 4 Unit)).2.marks.get (Slot.home 13).previous = .empty := by decide
  have hcovered := ((tombstones_needed_until_crowded 4 [.put 5 id, .put 13 id, .remove 5]).1
    ⟨_, hempty⟩).1
  exact ⟨htomb, hempty, hcovered _ htomb⟩

/-- Keys that are added and removed can leave a table without keys that is full of tombstones. -/
theorem tombstones_without_keys :
    let t := (runAll serve [.put 5 id, .put 13 id, .put 18 id, .put 26 id, .remove 5, .remove 13,
      .remove 18, .put 1 id, .put 6 id, .put 9 id, .remove 1, .put 8 id, .remove 26, .remove 6,
      .remove 9, .remove 8] (empty : SlotTable 4 Unit)).2
    t.size = 0 ∧ (∀ s, t.marks.get s = .tombstone) ∧ ¬Covered t.marks := by
  intro t
  have htomb : ∀ s, t.marks.get s = .tombstone := by decide
  refine ⟨by decide, htomb, fun hcovered => ?_⟩
  obtain ⟨holder, key, hlive, -⟩ := hcovered (Slot.home 5) (htomb _)
  cases hlive.symm.trans (htomb holder)

end SourceFilter.SlotTable
