import SourceFilter.Proofs.SlotTable.Tombstones
import Mathlib.Data.Finset.Lattice.Fold
import Mathlib.Order.Lattice.Nat

/-!
# A removal seen at every moment

While a key is removed others may be looked for. At every moment of the removal all other keys lie
in their slots and no chain is broken, so a search finds every one of them, even if each of the
slots it visits is read at a moment of its own. In the end the removal has emptied exactly those
tombstones of the run of used slots around the key that lie on no chain. This works because the
walk visits all slots of the run, and its reach is exactly how far the chains of the keys behind it
extend before it.
-/

namespace SourceFilter.SlotTable

open Slot

variable {capacity : Nat} {V : Type} {buried marks : Vector Mark (slotCount capacity)}
  {stop s : Slot capacity} {key : Nat}

/-- Follows the slots of a search while the marks change: each slot is read from the marks of its
own moment. -/
def seekAmid (moments : Nat → Vector Mark (slotCount capacity)) (key : Nat) :
    Nat → Slot capacity → Option (Slot capacity)
  | 0, _ => none
  | steps + 1, s =>
    match (moments steps).get s with
    | .empty => none
    | .tombstone => seekAmid moments key steps s.next
    | .live k => if k = key then some s else seekAmid moments key steps s.next

/-- Where the marks do not change this is the search. -/
theorem seekAmid_const (marks : Vector Mark (slotCount capacity)) (key steps : Nat)
    (s : Slot capacity) : seekAmid (fun _ => marks) key steps s = seek marks key steps s := by
  induction steps generalizing s with
  | zero => rfl
  | succ steps ih =>
    rw [seekAmid, seek]
    cases marks.get s with
    | empty => rfl
    | tombstone => exact ih s.next
    | live k => rw [ih s.next]

/-- A search that may go as far as a slot with the key ends at one, if no slot up to there is empty
at any moment. -/
theorem seekAmid_eq_some {moments : Nat → Vector Mark (slotCount capacity)}
    {holder : Slot capacity} {steps : Nat} (hsteps : s.distance holder < steps)
    (hlive : ∀ n, (moments n).get holder = .live key)
    (hused : ∀ n (i : Slot capacity), i.distance holder ≤ s.distance holder →
      (moments n).get i ≠ .empty) :
    ∃ found n, seekAmid moments key steps s = some found ∧
      (moments n).get found = .live key := by
  induction steps generalizing s with
  | zero => exact absurd hsteps (Nat.not_lt_zero _)
  | succ steps ih =>
    have hrest (hne : s ≠ holder) : ∃ found n,
        seekAmid moments key steps s.next = some found ∧ (moments n).get found = .live key := by
      have hnext : s.distance holder = s.next.distance holder + 1 := by
        have hprevious : s.next.previous ≠ holder := by rwa [previous_next]
        have hdistance := distance_previous hprevious
        rwa [previous_next] at hdistance
      exact ih (by omega) fun n i hi => hused n i (by omega)
    rw [seekAmid]
    cases hm : (moments steps).get s with
    | empty => exact absurd hm (hused steps s (Nat.le_refl _))
    | tombstone =>
      refine hrest ?_
      rintro rfl
      cases hm.symm.trans (hlive steps)
    | live k =>
      by_cases hk : k = key
      · rw [hk] at hm
        exact ⟨s, steps, if_pos hk, hm⟩
      · simp only [if_neg hk]
        refine hrest ?_
        rintro rfl
        exact hk (Mark.live.inj (hm.symm.trans (hlive steps)))

/-- At every moment of a removal a search for another key finds it, and so does one that reads each
slot at a moment of its own. -/
theorem Unbroken.seekAmid_vacating (h : Unbroken marks)
    {moments : Nat → Vector Mark (slotCount capacity)} {holder : Slot capacity}
    (hmoments : ∀ n, Vacating marks s (moments n)) (hne : s ≠ holder)
    (hlive : marks.get holder = .live key) :
    ∃ found, seekAmid moments key (slotCount capacity) (home key) = some found ∧
      (Single marks → found = holder) := by
  have hstays (n : Nat) : (moments n).get holder = .live key :=
    ((hmoments n).live_iff h).2 ⟨hne, hlive⟩
  have hused (n : Nat) (i : Slot capacity) (hchain : OnChain key holder i) :
      (moments n).get i ≠ .empty :=
    (hmoments n).unbroken h (hstays n) i hchain
  obtain ⟨found, n, hfound, hkey⟩ := seekAmid_eq_some (distance_lt (home key) holder) hstays hused
  refine ⟨found, hfound, fun hsingle => ?_⟩
  have hbefore := ((hmoments n).live_iff h).1 hkey
  exact hsingle hbefore.2 hlive

/-- A step empties the slot it visits, which has a tombstone, or changes no mark. -/
theorem Walk.marks_step {w : Walk capacity} (hend : w.marks.get w.slot.previous ≠ .empty) :
    w.step.marks = w.marks ∨ w.marks.get w.slot.previous = .tombstone ∧
      w.step.marks = w.marks.set w.slot.previous .empty w.slot.previous.isLt := by
  rw [Walk.step]
  cases hm : w.marks.get w.slot.previous with
  | empty => exact absurd hm hend
  | live k => exact .inl rfl
  | tombstone =>
    dsimp only
    split
    next => exact .inr ⟨rfl, rfl⟩
    next => exact .inl rfl

/-- From one moment of a removal to the next at most one tombstone is emptied. -/
theorem sweep_succ (marks : Vector Mark (slotCount capacity)) (s stop : Slot capacity)
    (steps : Nat) :
    (sweep marks s stop (steps + 1)).marks = (sweep marks s stop steps).marks ∨
      ∃ i : Slot capacity, (sweep marks s stop steps).marks.get i = .tombstone ∧
        (sweep marks s stop (steps + 1)).marks =
          (sweep marks s stop steps).marks.set i .empty i.isLt := by
  have hsplit : sweep marks s stop (steps + 1) = Walk.run 1 (sweep marks s stop steps) :=
    Walk.run_add steps 1 _
  rw [hsplit]
  generalize sweep marks s stop steps = w
  rw [Walk.run]
  split
  next => exact .inl rfl
  next hend =>
    exact (Walk.marks_step (Walk.used_previous hend)).imp_right fun h => ⟨w.slot.previous, h⟩

/-- Over how many of the slots before this one the chain of the key in a slot passes. -/
def overhang (marks : Vector Mark (slotCount capacity)) (s holder : Slot capacity) : Nat :=
  match marks.get holder with
  | .live key => (home key).distance holder - s.distance holder
  | _ => 0

/-- The overhang of the chain of a live key. -/
theorem overhang_of_live {holder : Slot capacity} (hlive : marks.get holder = .live key) :
    overhang marks s holder = (home key).distance holder - s.distance holder := by
  rw [overhang, hlive]

/-- The reach of a walk is the greatest overhang of the chains of the keys behind it. -/
theorem Walk.Exact.reach_eq_sup {w : Walk capacity} (h : w.Exact buried stop) :
    w.reach = (Finset.univ.filter fun holder : Slot capacity =>
      w.slot.distance holder < w.slot.distance stop).sup (overhang buried w.slot) := by
  apply Nat.le_antisymm
  · by_cases hreach : w.reach = 0
    · rw [hreach]
      exact Nat.zero_le _
    · obtain ⟨holder, key, hlive, hlt, hhome⟩ := h.attained hreach
      have hmem : holder ∈ Finset.univ.filter fun holder : Slot capacity =>
          w.slot.distance holder < w.slot.distance stop :=
        Finset.mem_filter.2 ⟨Finset.mem_univ holder, hlt⟩
      have hover : overhang buried w.slot holder = w.reach := by
        rw [overhang_of_live (h.safe.live_iff.1 hlive)]
        omega
      exact hover.symm.trans_le (Finset.le_sup hmem)
  · refine Finset.sup_le fun holder hmem => ?_
    have hlt := (Finset.mem_filter.1 hmem).2
    cases hm : buried.get holder with
    | live key =>
      have hbound := h.safe.reaches (h.safe.live_iff.2 hm) hlt
      rw [overhang_of_live hm]
      omega
    | empty =>
      rw [overhang, hm]
      exact Nat.zero_le _
    | tombstone =>
      rw [overhang, hm]
      exact Nat.zero_le _

/-- The reach of the walk of a removal, over the keys in the run that lie behind it. -/
theorem Unbroken.reach_sweep (h : Unbroken marks) (hs : marks.get s ≠ .empty)
    (hstop : seekEmpty (bury marks s) (slotCount capacity - 1) s.next = some stop) (steps : Nat) :
    let w := sweep marks s stop steps
    w.reach = (Finset.univ.filter fun holder : Slot capacity =>
      InRun marks s holder ∧ w.slot.distance holder < w.slot.distance stop).sup
        (overhang (bury marks s) w.slot) := by
  intro w
  have hclear := usedUpTo_of_seekEmpty (used_bury marks s) hstop
  have hvisits := h.usedUpTo_sweep hstop steps
  rw [(h.sweep_exact hstop steps).1.reach_eq_sup]
  congr 1
  refine Finset.filter_congr fun holder _ => ?_
  refine (and_iff_right_of_imp fun hlt => ?_).symm
  have hne := ne_of_seekEmpty_bury hstop
  exact (inRun_bury hs).1 (hclear.inRun_of_distance_lt hvisits hne hlt)

/-- While a key is removed from a table without broken chains every other key can be found. At each
moment it lies in its slot and its chain has no empty slot, so a search at this moment finds it, and
so does a search that reads each of its slots at another moment. From one moment to the next at most
one tombstone is emptied. If a slot was empty, in the end the tombstones of the run around the
removed key are empty exactly when they lie on no chain of another key, and nothing has changed
outside the run. The walk visits each slot of the run, and its reach is always the greatest number
of slots by which the chain of a key behind it, in the run, extends before it. -/
theorem removal_sound_and_exact {t : SlotTable capacity V} (hunbroken : Unbroken t.marks)
    (hs : t.marks.get s = .live key) :
    (∀ now, Vacating t.marks s now → ∀ holder k, s ≠ holder → t.marks.get holder = .live k →
      now.get holder = .live k ∧ (∀ i, OnChain k holder i → now.get i ≠ .empty) ∧
      ∃ found, ({ t with marks := now } : SlotTable capacity V).find? k = some found ∧
        (Single t.marks → found = holder)) ∧
    (∀ moments : Nat → Vector Mark (slotCount capacity), (∀ n, Vacating t.marks s (moments n)) →
      ∀ holder k, s ≠ holder → t.marks.get holder = .live k →
        ∃ found, seekAmid moments k (slotCount capacity) (home k) = some found ∧
          (Single t.marks → found = holder)) ∧
    Vacating t.marks s (vacate t.marks s) ∧
    ((∃ e, t.marks.get e = .empty) →
      ∃ stop, seekEmpty (bury t.marks s) (slotCount capacity - 1) s.next = some stop ∧
        vacate t.marks s = (sweep t.marks s stop (slotCount capacity - 1)).marks ∧
        (∀ steps, (sweep t.marks s stop (steps + 1)).marks = (sweep t.marks s stop steps).marks ∨
          ∃ i : Slot capacity, (sweep t.marks s stop steps).marks.get i = .tombstone ∧
            (sweep t.marks s stop (steps + 1)).marks =
              (sweep t.marks s stop steps).marks.set i .empty i.isLt) ∧
        (∀ i, InRun t.marks s i → (bury t.marks s).get i = .tombstone →
          ((vacate t.marks s).get i = .empty ↔ ¬Needed (bury t.marks s) i)) ∧
        (∀ i, ¬InRun t.marks s i → (vacate t.marks s).get i = t.marks.get i) ∧
        (∀ i, InRun t.marks s i → ∃ steps < slotCount capacity - 1,
          (sweep t.marks s stop steps).slot.previous = i ∧
            ¬(sweep t.marks s stop steps).atEnd = true) ∧
        ∀ steps, let w := sweep t.marks s stop steps
          w.reach = (Finset.univ.filter fun holder : Slot capacity =>
            InRun t.marks s holder ∧ w.slot.distance holder < w.slot.distance stop).sup
              (overhang (bury t.marks s) w.slot)) := by
  have hused := used_of_live hs
  refine ⟨fun now hnow holder k hne hlive => ?_, fun moments hmoments holder k hne hlive =>
    hunbroken.seekAmid_vacating hmoments hne hlive, vacating_vacate t.marks s, fun hempty => ?_⟩
  · have hstays : now.get holder = .live k := (hnow.live_iff hunbroken).2 ⟨hne, hlive⟩
    have hmoments : ∀ _ : Nat, Vacating t.marks s now := fun _ => hnow
    obtain ⟨found, hfound, hsingle⟩ := hunbroken.seekAmid_vacating hmoments hne hlive
    rw [seekAmid_const] at hfound
    exact ⟨hstays, hnow.unbroken hunbroken hstays, found, hfound, hsingle⟩
  · obtain ⟨stop, hstop⟩ := exists_seekEmpty_bury hused hempty
    have hcases := hunbroken.vacate_cases hs hempty
    refine ⟨stop, hstop, vacate_eq_sweep hstop, sweep_succ t.marks s stop, fun i hrun htomb => ?_,
      fun i hout => ?_, fun i hrun => ?_, hunbroken.reach_sweep hused hstop⟩
    · rcases hcases i with ⟨⟨-, -, hfree⟩, hcleared⟩ | ⟨hneeded, hsame⟩
      · exact iff_of_true hcleared hfree
      · have hleft : (vacate t.marks s).get i ≠ .empty := by
          rw [hsame, htomb]
          exact Mark.noConfusion
        exact iff_of_false hleft fun hfree => hfree (hneeded hrun htomb)
    · rcases hcases i with ⟨⟨hrun, -⟩, -⟩ | ⟨-, hsame⟩
      · exact absurd hrun hout
      · have hne : s ≠ i := fun he => hout (he ▸ inRun_self hused)
        rw [hsame, get_bury, if_neg hne]
    · have hrun' := (inRun_bury hused).2 hrun
      have hne : i ≠ stop := by
        rintro rfl
        exact hrun'.used (get_of_seekEmpty hstop)
      exact hunbroken.exists_visit hstop hne (hunbroken.visited_of_inRun hstop hrun')

/-- The run of the keys 8, 5 and 21 leads around the end of the table, and 16 has left a tombstone
in it. When 21 is removed its slot is emptied, but not that of 16: it lies on the chain of 5, which
is found all the time. -/
theorem removal_around_the_end :
    let t := (runAll serve [.put 8 id, .put 16 id, .put 5 id, .put 21 id, .remove 16]
      (empty : SlotTable 4 Unit)).2
    let last := (home 5 : Slot 4).ahead 2
    (Unbroken t.marks ∧ t.marks.get last = .live 21) ∧
      (∀ now, Vacating t.marks last now → { t with marks := now }.find? 5 = some last.previous) ∧
      ¬Needed (bury t.marks last) last ∧ (vacate t.marks last).get (home 5) ≠ .empty ∧
      InRun t.marks last (home 8) ∧ ¬InRun t.marks last (home 8).previous := by
  intro t last
  have hsound : t.Sound := (tidy_run 4 _).1
  have hlive : t.marks.get last = .live 21 := by decide
  obtain ⟨hfound, -, -, hends⟩ := removal_sound_and_exact hsound.unbroken hlive
  obtain ⟨-, -, -, -, hexact, -⟩ := hends ⟨last.next, by decide⟩
  have hfive : t.marks.get last.previous = .live 5 := by decide
  refine ⟨⟨hsound.unbroken, hlive⟩, fun now hnow => ?_, ?_, fun hempty => ?_, by decide,
    by decide⟩
  · obtain ⟨-, -, found, hfind, hsingle⟩ := hfound now hnow last.previous 5 (by decide) hfive
    rw [hfind, hsingle hsound.single]
  · exact (hexact last (by decide) (by decide)).1 (by decide)
  · have hneeded : Needed (bury t.marks last) (home 5) := ⟨last.previous, 5, by decide, by decide⟩
    exact (hexact (home 5) (by decide) (by decide)).1 hempty hneeded

end SourceFilter.SlotTable
