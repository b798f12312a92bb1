import SourceFilter.Proofs.SlotTable.UsedRun

/-!
# What a removal cleans up

A tombstone is needed when it lies on the chain of a live key. The walk of a removal knows this
exactly: its reach is what the chains of the keys behind it extend before it at most, so of the
tombstones it visits it empties those that are not needed and no others. A walk that ends at an
empty slot has visited the whole run of used slots around the removed key, and no chain of that key
extends beyond. So a removal that finds an empty slot to start from leaves only tombstones that are
needed, if there were no others before.
-/

namespace SourceFilter.SlotTable

open Slot

variable {capacity : Nat} {V : Type} {buried marks : Vector Mark (slotCount capacity)}
  {stop s i : Slot capacity} {key : Nat}

/-- The slot lies on the chain of a live key. -/
def Needed (marks : Vector Mark (slotCount capacity)) (s : Slot capacity) : Prop :=
  ∃ holder key, marks.get holder = .live key ∧ OnChain key holder s

/-- Every tombstone is needed. -/
def Covered (marks : Vector Mark (slotCount capacity)) : Prop :=
  ∀ s : Slot capacity, marks.get s = .tombstone → Needed marks s

/-- A slot is needed where all live keys stay. -/
theorem Needed.of_live {marks' : Vector Mark (slotCount capacity)} (h : Needed marks s)
    (hlive : ∀ ⦃holder key⦄, marks.get holder = .live key → marks'.get holder = .live key) :
    Needed marks' s := by
  obtain ⟨holder, key, hkey, hchain⟩ := h
  exact ⟨holder, key, hlive hkey, hchain⟩

/-- A step leads to the slot before. -/
theorem Walk.slot_step (w : Walk capacity) : w.step.slot = w.slot.previous := by
  rw [Walk.step]
  cases w.marks.get w.slot.previous with
  | live key => rfl
  | empty => dsimp only; split <;> rfl
  | tombstone => dsimp only; split <;> rfl

/-- What a walk that started at an empty slot knows about the slots it has visited, which are those
that are not farther from its start than the last one. -/
structure Walk.Exact (buried : Vector Mark (slotCount capacity)) (stop : Slot capacity)
    (w : Walk capacity) : Prop where
  /-- The walk is safe. -/
  safe : w.Safe buried stop
  /-- The slots that were not visited are as they were. -/
  unvisited : ∀ s : Slot capacity, w.slot.distance stop < s.distance stop →
    w.marks.get s = buried.get s
  /-- A reach that is not used up is that of a key behind the walk. -/
  attained : w.reach ≠ 0 → ∃ holder key, w.marks.get holder = .live key ∧
    w.slot.distance holder < w.slot.distance stop ∧
    (home key).distance holder = w.slot.distance holder + w.reach
  /-- The tombstones that were left are needed. -/
  covered : ∀ s : Slot capacity, s.distance stop ≤ w.slot.distance stop →
    w.marks.get s = .tombstone → Needed w.marks s

namespace Walk.Exact

variable {w : Walk capacity}

/-- A walk that has not begun. -/
theorem start (h : Walk.Safe buried stop ⟨stop, 0, buried⟩) :
    Walk.Exact buried stop ⟨stop, 0, buried⟩ := by
  refine ⟨h, fun s _ => rfl, fun hreach => absurd rfl hreach, fun s hs htomb => ?_⟩
  rw [distance_self] at hs
  have hstop : s = stop := eq_of_distance_eq_zero (Nat.le_zero.1 hs)
  have hempty : buried.get s = .empty := hstop ▸ h.stopped
  cases hempty.symm.trans htomb

/-- A reach that is not used up is, seen from the slot before, that of a key behind it. -/
theorem attained_previous (h : w.Exact buried stop) (hne : w.slot.previous ≠ stop)
    (hreach : w.reach ≠ 0) :
    ∃ holder key, w.marks.get holder = .live key ∧
      w.slot.previous.distance holder < w.slot.previous.distance stop ∧
      w.slot.previous.distance holder + w.reach = (home key).distance holder + 1 := by
  obtain ⟨holder, key, hlive, hlt, hhome⟩ := h.attained hreach
  have hstop := distance_previous hne
  have hbehind := distance_le_of_distance_lt hlt
  have hother : w.slot.previous ≠ holder := by
    intro he
    rw [← he] at hbehind
    omega
  have hholder := distance_previous hother
  exact ⟨holder, key, hlive, by omega, by omega⟩

/-- A slot that was not visited is not farther from the start than the one before the walk only when
it is this one. -/
theorem eq_previous (hne : w.slot.previous ≠ stop)
    (hs : s.distance stop ≤ w.slot.previous.distance stop)
    (hnew : ¬ s.distance stop ≤ w.slot.distance stop) : s = w.slot.previous := by
  have hstop := distance_previous hne
  exact eq_of_distance_eq (c := stop) (by omega)

/-- A tombstone that is emptied was not needed, and all others still are. -/
theorem clear (h : w.Exact buried stop) (hne : w.slot.previous ≠ stop)
    (htomb : w.marks.get w.slot.previous = .tombstone)
    (hsafe : Walk.Safe buried stop
      ⟨w.slot.previous, 0, w.marks.set w.slot.previous .empty w.slot.previous.isLt⟩) :
    Walk.Exact buried stop
      ⟨w.slot.previous, 0, w.marks.set w.slot.previous .empty w.slot.previous.isLt⟩ := by
  have hstop := distance_previous hne
  have hget (i : Slot capacity) : (w.marks.set w.slot.previous .empty).get i =
      if w.slot.previous = i then .empty else w.marks.get i := get_set w.marks w.slot.previous i _
  have hlive ⦃holder : Slot capacity⦄ ⦃key : Nat⦄ (hkey : w.marks.get holder = .live key) :
      (w.marks.set w.slot.previous .empty).get holder = .live key := by
    have hother : w.slot.previous ≠ holder := by
      intro he
      cases htomb.symm.trans (he ▸ hkey)
    rw [hget, if_neg hother, hkey]
  refine ⟨hsafe, fun s hs => ?_, fun hreach => absurd rfl hreach, fun s hs hleft => ?_⟩
  · have hother : w.slot.previous ≠ s := by
      intro he
      rw [← he] at hs
      exact absurd hs (Nat.lt_irrefl _)
    have hbefore : w.slot.distance stop < s.distance stop := by
      dsimp only at hs
      omega
    rw [hget, if_neg hother, h.unvisited s hbefore]
  · simp only [hget] at hleft
    split at hleft
    next => cases hleft
    next hother =>
      have hvisited : s.distance stop ≤ w.slot.distance stop := by
        by_contra hnew
        exact hother (eq_previous hne hs hnew).symm
      exact (h.covered s hvisited hleft).of_live hlive

/-- One slot more that keeps its mark. -/
theorem keep (h : w.Exact buried stop) (hne : w.slot.previous ≠ stop) {reach : Nat}
    (hsafe : Walk.Safe buried stop ⟨w.slot.previous, reach, w.marks⟩)
    (hattained : reach ≠ 0 → ∃ holder key, w.marks.get holder = .live key ∧
      w.slot.previous.distance holder < w.slot.previous.distance stop ∧
      (home key).distance holder = w.slot.previous.distance holder + reach)
    (hhere : w.marks.get w.slot.previous = .tombstone → Needed w.marks w.slot.previous) :
    Walk.Exact buried stop ⟨w.slot.previous, reach, w.marks⟩ := by
  have hstop := distance_previous hne
  refine ⟨hsafe, fun s hs => ?_, hattained, fun s hs hleft => ?_⟩
  · have hbefore : w.slot.distance stop < s.distance stop := by
      simp only at hs
      omega
    exact h.unvisited s hbefore
  · by_cases hvisited : s.distance stop ≤ w.slot.distance stop
    · exact h.covered s hvisited hleft
    · have hs' := eq_previous hne hs hvisited
      subst hs'
      exact hhere hleft

/-- One slot more. -/
theorem step (h : w.Exact buried stop) (hend : w.marks.get w.slot.previous ≠ .empty) :
    w.step.Exact buried stop := by
  have hsafe := h.safe.step hend
  have hne : w.slot.previous ≠ stop := h.safe.previous_ne hend
  obtain ⟨slot, reach, marks⟩ := w
  have hprevious (hreach : reach ≠ 0) : ∃ holder key, marks.get holder = .live key ∧
      slot.previous.distance holder < slot.previous.distance stop ∧
      slot.previous.distance holder + reach = (home key).distance holder + 1 :=
    h.attained_previous hne hreach
  rw [Walk.step] at hsafe ⊢
  cases hm : marks.get slot.previous with
  | empty => exact absurd hm hend
  | live k =>
    simp only [hm] at hsafe ⊢
    refine h.keep hne hsafe (fun hreach => ?_) fun htomb => by cases hm.symm.trans htomb
    rcases Nat.lt_or_ge ((home k).distance slot.previous) (reach - 1) with hold | hown
    · obtain ⟨holder, key, hlive, hlt, hhome⟩ := hprevious (by omega)
      rw [Nat.max_eq_left (Nat.le_of_lt hold)]
      have hfar : (home key).distance holder = slot.previous.distance holder + (reach - 1) := by
        omega
      exact ⟨holder, key, hlive, hlt, hfar⟩
    · -- The chain of the key that was met extends the farthest.
      have hstop : slot.previous.distance stop = slot.distance stop + 1 := distance_previous hne
      have hpos : slot.previous.distance slot.previous < slot.previous.distance stop := by
        rw [distance_self]
        omega
      rw [Nat.max_eq_right hown]
      refine ⟨slot.previous, k, hm, hpos, ?_⟩
      rw [distance_self, Nat.zero_add]
  | tombstone =>
    by_cases hr : reach = 0
    · subst hr
      simp only [hm, if_true] at hsafe ⊢
      exact h.clear hne hm hsafe
    · obtain ⟨holder, key, hlive, hlt, hhome⟩ := hprevious hr
      simp only [hm, if_neg hr] at hsafe ⊢
      have hfar : (home key).distance holder = slot.previous.distance holder + (reach - 1) := by
        omega
      refine h.keep hne hsafe (fun _ => ⟨holder, key, hlive, hlt, hfar⟩) fun _ => ?_
      refine ⟨holder, key, hlive, ?_⟩
      have hnear : slot.previous.distance holder ≤ (home key).distance holder := by
        omega
      exact hnear

/-- The slots up to an empty one, or so many. -/
theorem run (h : w.Exact buried stop) (steps : Nat) :
    (Walk.run steps w).Exact buried stop ∧
      ((Walk.run steps w).atEnd = true ∨
        (Walk.run steps w).slot.distance stop = w.slot.distance stop + steps) := by
  induction steps generalizing w with
  | zero => exact ⟨h, .inr rfl⟩
  | succ steps ih =>
    rw [Walk.run]
    split
    next hend => exact ⟨h, .inl hend⟩
    next hend =>
      have hnext := Walk.used_previous hend
      have hne : w.slot.previous ≠ stop := h.safe.previous_ne hnext
      obtain ⟨hexact, hend'⟩ := ih (h.step hnext)
      have hstop := distance_previous hne
      rw [slot_step] at hend'
      exact ⟨hexact, hend'.imp_right fun hd => by omega⟩

/-- A slot that a walk has visited in the end was the next one at some moment. -/
theorem exists_visit (h : w.Exact buried stop) {steps : Nat}
    (hnew : w.slot.distance stop < i.distance stop)
    (hvisited : i.distance stop ≤ (Walk.run steps w).slot.distance stop) :
    ∃ n < steps, (Walk.run n w).slot.previous = i ∧ ¬(Walk.run n w).atEnd = true := by
  induction steps generalizing w with
  | zero => exact absurd hvisited (Nat.not_le.2 hnew)
  | succ steps ih =>
    rw [Walk.run] at hvisited
    split at hvisited
    next => exact absurd hvisited (Nat.not_le.2 hnew)
    next hend =>
      have hnext := Walk.used_previous hend
      have hne : w.slot.previous ≠ stop := h.safe.previous_ne hnext
      by_cases hhere : i.distance stop ≤ w.step.slot.distance stop
      · rw [slot_step] at hhere
        exact ⟨0, Nat.succ_pos steps, (eq_previous hne hhere (Nat.not_le.2 hnew)).symm, hend⟩
      · obtain ⟨n, hn, hslot⟩ := ih (h.step hnext) (Nat.not_le.1 hhere) hvisited
        refine ⟨n + 1, Nat.succ_lt_succ hn, ?_⟩
        rw [Walk.run, if_neg hend]
        exact hslot

/-- A walk that ends before it has been around ends at an empty slot that was empty before. -/
theorem ended (h : w.Exact buried stop)
    (hend : w.atEnd = true ∨ w.slot.distance stop + 1 = slotCount capacity)
    (hshort : w.slot.distance stop + 1 < slotCount capacity) :
    buried.get w.slot.previous = .empty ∧
      w.slot.previous.distance stop = w.slot.distance stop + 1 := by
  have hne : w.slot.previous ≠ stop := by
    intro he
    have hround := distance_next_self w.slot.previous
    rw [next_previous, he] at hround
    omega
  have hstop := distance_previous hne
  have hlast : w.marks.get w.slot.previous = .empty := by
    rcases hend with hend | hend
    · exact beq_iff_eq.1 hend
    · omega
  have hbefore := h.unvisited w.slot.previous (by omega)
  exact ⟨hbefore.symm.trans hlast, hstop⟩

end Walk.Exact

/-- Where only used slots lie between a slot and the start of the walk, the walk has visited it. -/
theorem Walk.passed {w : Walk capacity} (hclear : UsedUpTo buried stop s)
    (hlast : buried.get w.slot.previous = .empty)
    (hprevious : w.slot.previous.distance stop = w.slot.distance stop + 1) :
    s.distance stop ≤ w.slot.distance stop := by
  by_contra hbeyond
  have hne : w.slot.previous ≠ stop := by
    intro he
    rw [he, distance_self] at hprevious
    omega
  exact hclear w.slot.previous (by omega) hne hlast

/-- What holds of the walk of a removal after so many slots. -/
theorem Unbroken.sweep_exact (h : Unbroken marks)
    (hstop : seekEmpty (bury marks s) (slotCount capacity - 1) s.next = some stop) (steps : Nat) :
    (sweep marks s stop steps).Exact (bury marks s) stop ∧
      ((sweep marks s stop steps).atEnd = true ∨
        (sweep marks s stop steps).slot.distance stop = steps) := by
  have hstart := Walk.Exact.start (h.sweep_safe hstop 0)
  obtain ⟨hexact, hend⟩ := hstart.run steps
  rw [distance_self, Nat.zero_add] at hend
  exact ⟨hexact, hend⟩

/-- A slot that the walk of a removal has visited was the next one at some moment. -/
theorem Unbroken.exists_visit (h : Unbroken marks)
    (hstop : seekEmpty (bury marks s) (slotCount capacity - 1) s.next = some stop) {steps : Nat}
    (hne : i ≠ stop)
    (hvisited : i.distance stop ≤ (sweep marks s stop steps).slot.distance stop) :
    ∃ n < steps, (sweep marks s stop n).slot.previous = i ∧
      ¬(sweep marks s stop n).atEnd = true := by
  refine (h.sweep_exact hstop 0).1.exists_visit ?_ hvisited
  change stop.distance stop < i.distance stop
  rw [distance_self]
  exact Nat.pos_of_ne_zero fun h0 => hne (eq_of_distance_eq_zero h0)

/-- The walk of a removal visits used slots only. -/
theorem Unbroken.usedUpTo_sweep (h : Unbroken marks)
    (hstop : seekEmpty (bury marks s) (slotCount capacity - 1) s.next = some stop) (steps : Nat) :
    UsedUpTo (bury marks s) stop (sweep marks s stop steps).slot := by
  intro i hi hne
  obtain ⟨n, -, rfl, hend⟩ := h.exists_visit hstop hne hi
  have hprevious := distance_previous hne
  rw [← (h.sweep_exact hstop n).1.unvisited _ (by omega)]
  exact Walk.used_previous hend

/-- In the end the walk of a removal has visited the whole run. -/
theorem Unbroken.visited_of_inRun (h : Unbroken marks)
    (hstop : seekEmpty (bury marks s) (slotCount capacity - 1) s.next = some stop)
    (hrun : InRun (bury marks s) s i) :
    i.distance stop ≤ (sweep marks s stop (slotCount capacity - 1)).slot.distance stop := by
  obtain ⟨hexact, hend⟩ := h.sweep_exact hstop (slotCount capacity - 1)
  generalize sweep marks s stop (slotCount capacity - 1) = w at hexact hend ⊢
  have hlt := distance_lt i stop
  by_contra hbeyond
  obtain ⟨hlast, hprevious⟩ := hexact.ended (hend.imp_right fun hd => by omega) (by omega)
  have hpassed := Walk.passed (usedUpTo_of_seekEmpty (used_bury marks s) hstop) hlast hprevious
  rcases hrun with honwards | hback
  · -- The slot where the walk started would lie in the run.
    refine honwards stop (distance_le_of_distance_lt ?_) (get_of_seekEmpty hstop)
    rcases distance_add_distance s i stop with hd | hd <;> omega
  · -- The empty slot where the walk ended would lie in the run.
    refine hback w.slot.previous ?_ hlast
    have hfrom : w.slot.previous.distance s + s.distance stop = w.slot.previous.distance stop :=
      distance_add_distance_of_le (by omega)
    have hover : i.distance s + s.distance stop = i.distance stop :=
      distance_add_distance_of_le (by omega)
    omega

/-- When some slot was empty, a removal has emptied the tombstones of the run around the removed key
that are not needed, and has changed nothing else. -/
theorem Unbroken.vacate_cases (h : Unbroken marks) (hs : marks.get s = .live key)
    (hempty : ∃ e, marks.get e = .empty) (i : Slot capacity) :
    (InRun marks s i ∧ (bury marks s).get i = .tombstone ∧ ¬Needed (bury marks s) i) ∧
        (SlotTable.vacate marks s).get i = .empty ∨
      (InRun marks s i → (bury marks s).get i = .tombstone → Needed (bury marks s) i) ∧
        (SlotTable.vacate marks s).get i = (bury marks s).get i := by
  have hused := used_of_live hs
  obtain ⟨stop, hstop⟩ := exists_seekEmpty_bury hused hempty
  obtain ⟨hexact, -⟩ := h.sweep_exact hstop (slotCount capacity - 1)
  have hvisits := h.usedUpTo_sweep hstop (slotCount capacity - 1)
  have hvisited := h.visited_of_inRun hstop (i := i)
  rw [inRun_bury hused] at hvisited
  rw [vacate_eq_sweep hstop]
  generalize sweep marks s stop (slotCount capacity - 1) = w at hexact hvisits hvisited ⊢
  rcases hexact.safe.kept i with hsame | ⟨htomb, hcleared⟩
  · right
    refine ⟨fun hrun htomb => ?_, hsame⟩
    have hneeded := hexact.covered i (hvisited hrun) (hsame.trans htomb)
    exact hneeded.of_live fun _ _ hlive => hexact.safe.live_iff.1 hlive
  · left
    refine ⟨⟨?_, htomb, ?_⟩, hcleared⟩
    · have hne : i ≠ stop := by
        rintro rfl
        cases (get_of_seekEmpty hstop).symm.trans htomb
      have hnear : i.distance stop ≤ w.slot.distance stop := by
        by_contra hbeyond
        rw [hexact.unvisited i (Nat.not_le.1 hbeyond), htomb] at hcleared
        cases hcleared
      have hclear := usedUpTo_of_seekEmpty (used_bury marks s) hstop
      exact (inRun_bury hused).1
        (hclear.inRun (hvisits.mono hnear) (ne_of_seekEmpty_bury hstop) hne)
    · rintro ⟨holder, k, hlive, hchain⟩
      exact hexact.safe.unbroken (hexact.safe.live_iff.2 hlive) i hchain hcleared

/-- As long as a slot is empty, a removal leaves only tombstones that are needed. -/
theorem Covered.vacate (h : Covered marks) (hunbroken : Unbroken marks)
    (hs : marks.get s = .live key) (hempty : ∃ e, marks.get e = .empty) :
    Covered (vacate marks s) := by
  have hlive := (hunbroken.vacate s).2
  intro t htomb
  rcases hunbroken.vacate_cases hs hempty t with ⟨-, hcleared⟩ | ⟨hneeded, hsame⟩
  · cases htomb.symm.trans hcleared
  · have hburied : (bury marks s).get t = .tombstone := hsame.symm.trans htomb
    by_cases hrun : InRun marks s t
    · refine (hneeded hrun hburied).of_live fun holder k hkey => ?_
      exact (hlive holder k).2 ((get_bury_iff marks s holder k).1 hkey)
    · -- Outside the run it was a tombstone before, needed by another key than the removed one.
      have hne : s ≠ t := by
        rintro rfl
        exact hrun (inRun_self (used_of_live hs))
      rw [get_bury, if_neg hne] at hburied
      obtain ⟨holder, k, hkey, hchain⟩ := h t hburied
      have hother : s ≠ holder := by
        rintro rfl
        exact hrun (hunbroken.inRun hkey hchain)
      exact ⟨holder, k, (hlive holder k).2 ⟨hother, hkey⟩, hchain⟩

end SourceFilter.SlotTable
