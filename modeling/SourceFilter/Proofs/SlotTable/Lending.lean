import SourceFilter.Proofs.SlotTable.Mixing

/-!
# Loans across changes

No operation moves a live key: it stays in its slot until it is removed. So a loan settles whenever
its key was not removed in the meantime, however many other keys came and went, and it does not
settle once another key has taken the slot. What it settles to is what its key had when the value
was read.
-/

namespace SourceFilter.SlotTable

variable {capacity : Nat} {V : Type} {t : SlotTable capacity V} {s : Slot capacity}
  {key : Nat} {v : V}

/-- A loan settles exactly when the key lies in the same slot as before. -/
theorem Sound.settles_iff (h : t.Sound) (t' : SlotTable capacity V) :
    (t.lend? key).bind t'.settle? = some v ↔
      ∃ s, t.marks.get s = .live key ∧ t.values.get s = v ∧ t'.marks.get s = .live key := by
  simp only [Option.bind_eq_some_iff, lend?, Option.map_eq_some_iff, h.find?_eq_some_iff]
  constructor
  · rintro ⟨loan, ⟨s, hs, rfl⟩, hsettle⟩
    obtain ⟨hstays, hvalue⟩ := Option.ite_none_right_eq_some.1 hsettle
    exact ⟨s, hs, Option.some.inj hvalue, hstays⟩
  · rintro ⟨s, hs, rfl, hstays⟩
    exact ⟨_, ⟨s, hs, rfl⟩, if_pos hstays⟩

/-- Removing another key leaves a live key in its slot. -/
theorem Sound.get_marks_remove (h : t.Sound) {other : Nat} (hother : other ≠ key)
    (hs : t.marks.get s = .live key) : (t.remove other).2.marks.get s = .live key := by
  rw [remove]
  split
  next => exact hs
  next vacated hfind =>
    have hne : vacated ≠ s := by
      intro he
      have hlive := get_of_find? hfind
      rw [he, hs] at hlive
      exact hother (Mark.live.inj hlive).symm
    exact ((h.unbroken.vacate vacated).2 s key).2 ⟨hne, hs⟩

variable [Inhabited V]

/-- An operation that does not remove a live key leaves it in its slot. -/
theorem Sound.get_marks_operate (h : t.Sound) {operation : Operation V}
    (hkeeps : operation ≠ .request (.remove key)) (hs : t.marks.get s = .live key) :
    (t.operate operation).2.marks.get s = .live key := by
  cases hremoves : operation.removes with
  | false =>
    rcases marks_operate t hremoves with hsame | ⟨taken, other, hfree, hset⟩
    · rw [hsame, hs]
    · have hne : taken ≠ s := by
        rintro rfl
        rcases hfree with he | ⟨-, he⟩ <;> cases hs.symm.trans he
      rw [hset, get_set, if_neg hne, hs]
  | true =>
    -- only a request to remove another key is left
    cases operation with
    | claim _ _ => cases hremoves
    | request request =>
      cases request with
      | remove other =>
        have hother : other ≠ key := fun he => hkeeps (he ▸ rfl)
        exact h.get_marks_remove hother hs
      | _ => cases hremoves

/-- A live key stays in its slot until it is removed. -/
theorem get_marks_operations (h : t.Sound) {operations : List (Operation V)}
    (hkeeps : .request (.remove key) ∉ operations) (hs : t.marks.get s = .live key) :
    (runAll operate operations t).2.marks.get s = .live key := by
  let Stays (t' : SlotTable capacity V) : Prop := t'.Sound ∧ t'.marks.get s = .live key
  have hstep : ∀ operation ∈ operations, ∀ t', Stays t' → Stays (t'.operate operation).2 := by
    intro operation hmem t' ⟨hsound, hstays⟩
    have hother : operation ≠ .request (.remove key) := fun he => hkeeps (he ▸ hmem)
    exact ⟨hsound.operate_sound operation, hsound.get_marks_operate hother hstays⟩
  have hrun : Stays (runAll operate operations t).2 := runAll_invariant_of_mem hstep ⟨h, hs⟩
  exact hrun.2

/-- A loan never lends the value of another key. It settles exactly when its key lies in the same
slot at both ends, and then to the value that the key had at the start; not when the key was absent
at the start, or is at the end. Whatever happened to other keys, it settles when its key was not
removed, as no live key ever moves to another slot. -/
theorem loan_settles_for_its_own_key (capacity : Nat) (before meanwhile : List (Operation V))
    (key : Nat) :
    let t := (runAll operate before (empty : SlotTable capacity V)).2
    let t' := (runAll operate meanwhile t).2
    let settled := (t.lend? key).bind t'.settle?
    (∀ v, settled = some v ↔
      t.get? key = some v ∧ ∃ s, t.marks.get s = .live key ∧ t'.marks.get s = .live key) ∧
    (¬t.contains key ∨ ¬t'.contains key → settled = none) ∧
    (.request (.remove key) ∉ meanwhile → settled = t.get? key) ∧
    ∀ s other, t.marks.get s = .live other → .request (.remove other) ∉ meanwhile →
      t'.marks.get s = .live other := by
  intro t t' settled
  have hsound : t.Sound := sound_operations sound_empty before
  have hsound' : t'.Sound := sound_operations hsound meanwhile
  have hstays (s : Slot capacity) (other : Nat) (hs : t.marks.get s = .live other)
      (hkeeps : .request (.remove other) ∉ meanwhile) : t'.marks.get s = .live other :=
    get_marks_operations hsound hkeeps hs
  have hsettled (v : V) : settled = some v ↔
      t.get? key = some v ∧ ∃ s, t.marks.get s = .live key ∧ t'.marks.get s = .live key := by
    rw [hsound.settles_iff, hsound.get?_eq_some_iff]
    constructor
    · rintro ⟨s, hs, hvalue, hs'⟩
      exact ⟨⟨s, hs, hvalue⟩, s, hs, hs'⟩
    · rintro ⟨⟨s, hs, hvalue⟩, i, hi, hi'⟩
      obtain rfl := hsound.single hs hi
      exact ⟨s, hs, hvalue, hi'⟩
  refine ⟨hsettled, fun habsent => ?_, fun hkeeps => Option.ext fun v => ?_, hstays⟩
  · rw [Option.eq_none_iff_forall_ne_some]
    intro v hv
    obtain ⟨hvalue, s, -, hs'⟩ := (hsettled v).1 hv
    rcases habsent with hkey | hkey
    · rw [contains_eq_isSome, hvalue] at hkey
      exact hkey rfl
    · rw [contains, hsound'.find?_eq_some_iff.2 hs'] at hkey
      exact hkey rfl
  · rw [hsettled]
    refine and_iff_left_of_imp fun hvalue => ?_
    obtain ⟨s, hs, -⟩ := hsound.get?_eq_some_iff.1 hvalue
    exact ⟨s, hs, hstays s key hs hkeeps⟩

/-- The keys 5, 13 and 18 have one home. While others come and go the loan of 5 settles; it does not
when 5 is gone and 13 has its slot, although 13 lies where the value was read. -/
theorem loan_settles_unless_slot_was_reused :
    let t := (runAll operate [.request (.put 5 fun _ => 7), .request (.put 18 fun _ => 9)]
      (empty : SlotTable 2 Nat)).2
    let churned := (runAll operate [.request (.remove 18), .request (.put 13 fun _ => 8)] t).2
    let reused := (runAll operate [.request (.remove 5), .request (.put 13 fun _ => 8)] t).2
    (t.lend? 5).bind churned.settle? = some 7 ∧
      reused.find? 13 = t.find? 5 ∧ (t.lend? 5).bind reused.settle? = none := by
  intro t churned reused
  have hkept := (loan_settles_for_its_own_key 2
    [.request (.put 5 fun _ => 7), .request (.put 18 fun _ => 9)]
    [.request (.remove 18), .request (.put 13 fun _ => 8)] 5).2.2.1 (by simp)
  have hlost := (loan_settles_for_its_own_key 2
    [.request (.put 5 fun _ => 7), .request (.put 18 fun _ => 9)]
    [.request (.remove 5), .request (.put 13 fun _ => 8)] 5).2.1 (.inr (by decide))
  have hvalue : t.get? 5 = some 7 := by decide
  exact ⟨hkept.trans hvalue, by decide, hlost⟩

end SourceFilter.SlotTable
