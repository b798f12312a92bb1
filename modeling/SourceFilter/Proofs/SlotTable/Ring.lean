import SourceFilter.SlotTable.Basic

/-!
# The ring of slots

The slots of a table form a ring: going ahead wraps around at the end. Positions are compared by
the steps that lead from one slot onwards to another, so that no statement about a search has to
tell whether it wrapped. The slots that the search for a key visits before it reaches the key's
holder are the chain of the key.
-/

namespace SourceFilter.Slot

variable {capacity : Nat}

/-- Going ahead without reaching the end adds the steps. -/
theorem val_ahead_of_lt {s : Slot capacity} {steps : Nat} (h : s + steps < slotCount capacity) :
    (s.ahead steps).val = s + steps :=
  Nat.mod_eq_of_lt h

/-- Going ahead beyond the end starts over. -/
theorem val_ahead_of_le {s : Slot capacity} {steps : Nat} (h : slotCount capacity ≤ s + steps)
    (hs : steps ≤ slotCount capacity) :
    (s.ahead steps).val = s + steps - slotCount capacity := by
  have hlt := s.isLt
  change (s + steps) % slotCount capacity = _
  rw [Nat.mod_eq_sub_mod h, Nat.mod_eq_of_lt (by omega)]

/-- The distance to a slot that is not before this one. -/
theorem distance_of_le {first last : Slot capacity} (h : first ≤ last) :
    first.distance last = last - first := by
  have hf := first.isLt
  have hl := last.isLt
  have hle : first.val ≤ last.val := h
  have he : last + slotCount capacity - first = last - first + slotCount capacity := by omega
  rw [distance, he, Nat.add_mod_right, Nat.mod_eq_of_lt (by omega)]

/-- The distance to a slot that is before this one leads around the end. -/
theorem distance_of_lt {first last : Slot capacity} (h : last < first) :
    first.distance last = last + slotCount capacity - first := by
  have hf := first.isLt
  have hlt : last.val < first.val := h
  rw [distance, Nat.mod_eq_of_lt (by omega)]

/-- A distance is less than a whole round. -/
theorem distance_lt (first last : Slot capacity) : first.distance last < slotCount capacity :=
  Nat.mod_lt _ (slotCount_pos capacity)

/-- No steps lead nowhere. -/
@[simp] theorem ahead_zero (s : Slot capacity) : s.ahead 0 = s :=
  Fin.ext (val_ahead_of_lt s.isLt)

/-- Going ahead twice is going ahead by all the steps. -/
theorem ahead_ahead (s : Slot capacity) (m n : Nat) : (s.ahead m).ahead n = s.ahead (m + n) := by
  apply Fin.ext
  change ((s + m) % slotCount capacity + n) % slotCount capacity =
    (s + (m + n)) % slotCount capacity
  rw [Nat.mod_add_mod, Nat.add_assoc]

/-- The distance leads to the slot. -/
theorem ahead_distance (first last : Slot capacity) : first.ahead (first.distance last) = last := by
  have hf := first.isLt
  have hl := last.isLt
  apply Fin.ext
  rcases Nat.lt_or_ge last.val first.val with h | h
  · rw [distance_of_lt h, val_ahead_of_le (by omega) (by omega)]
    omega
  · rw [distance_of_le h, val_ahead_of_lt (by omega)]
    omega

/-- The steps gone are the distance, unless they make a whole round. -/
theorem distance_ahead (s : Slot capacity) {steps : Nat} (h : steps < slotCount capacity) :
    s.distance (s.ahead steps) = steps := by
  have hs := s.isLt
  rcases Nat.lt_or_ge (s + steps) (slotCount capacity) with hlt | hge
  · have hv := val_ahead_of_lt hlt
    rw [distance_of_le (Fin.le_def.2 (by omega)), hv]
    omega
  · have hv := val_ahead_of_le hge (Nat.le_of_lt h)
    rcases Nat.eq_zero_or_pos steps with h0 | h0
    · omega
    · rw [distance_of_lt (Fin.lt_def.2 (by omega)), hv]
      omega

/-- A slot is not away from itself. -/
@[simp] theorem distance_self (s : Slot capacity) : s.distance s = 0 := by
  rw [distance_of_le (Fin.le_refl s), Nat.sub_self]

/-- Only a slot itself is not away. -/
theorem eq_of_distance_eq_zero {first last : Slot capacity} (h : first.distance last = 0) :
    first = last := by
  have ha := ahead_distance first last
  rwa [h, ahead_zero] at ha

/-- A way through a slot is the direct way or a whole round longer. -/
theorem distance_add_distance (a b c : Slot capacity) :
    a.distance b + b.distance c = a.distance c ∨
      a.distance b + b.distance c = a.distance c + slotCount capacity := by
  have ha := a.isLt
  have hb := b.isLt
  have hc := c.isLt
  rcases Nat.lt_or_ge b.val a.val with h1 | h1 <;>
    rcases Nat.lt_or_ge c.val b.val with h2 | h2 <;>
    rcases Nat.lt_or_ge c.val a.val with h3 | h3 <;>
    simp only [distance_of_lt, distance_of_le, Fin.lt_def, Fin.le_def, h1, h2, h3] <;> omega

/-- A slot that is not farther from the end of a way than its start lies on the direct way. -/
theorem distance_add_distance_of_le {a b c : Slot capacity} (h : b.distance c ≤ a.distance c) :
    a.distance b + b.distance c = a.distance c := by
  have hlt := distance_lt a b
  rcases distance_add_distance a b c with hd | hd <;> omega

/-- Slots that are equally far from a slot are equal. -/
theorem eq_of_distance_eq {a b c : Slot capacity} (h : a.distance c = b.distance c) : a = b := by
  have hadd := distance_add_distance_of_le (Nat.le_of_eq h.symm)
  have hzero : a.distance b = 0 := by
    omega
  exact eq_of_distance_eq_zero hzero

/-- A slot that comes before another one on the way to it is not farther from it than the start. -/
theorem distance_le_of_distance_lt {first last s : Slot capacity}
    (h : first.distance s < first.distance last) : s.distance last ≤ first.distance last := by
  have hlt := distance_lt s last
  rcases distance_add_distance first s last with hd | hd <;> omega

/-- A slot between two others on the way to a third one is not nearer to that one than the second
and not farther from it than the first. -/
theorem distance_between {a b c s : Slot capacity} (hab : b.distance c ≤ a.distance c)
    (hs : s.distance b ≤ a.distance b) :
    b.distance c ≤ s.distance c ∧ s.distance c ≤ a.distance c := by
  have hdirect := distance_add_distance_of_le hab
  have hlt := distance_lt a c
  rcases distance_add_distance s b c with hd | hd <;> omega

/-- The slot before the next one is the slot itself. -/
@[simp] theorem previous_next (s : Slot capacity) : s.next.previous = s := by
  have hs := s.isLt
  have hn := slotCount_pos capacity
  rw [next, previous, ahead_ahead, Nat.add_sub_cancel' hn]
  exact Fin.ext ((val_ahead_of_le (by omega) (Nat.le_refl _)).trans (by omega))

/-- The slot after the previous one is the slot itself. -/
@[simp] theorem next_previous (s : Slot capacity) : s.previous.next = s := by
  have hs := s.isLt
  have hn := slotCount_pos capacity
  rw [next, previous, ahead_ahead, Nat.sub_add_cancel hn]
  exact Fin.ext ((val_ahead_of_le (by omega) (Nat.le_refl _)).trans (by omega))

/-- Going ahead from the next slot takes one step less. -/
theorem ahead_next (s : Slot capacity) (steps : Nat) :
    s.next.ahead steps = s.ahead (steps + 1) := by
  rw [next, ahead_ahead, Nat.add_comm]

/-- From the previous slot it is one step more, except to that slot itself. -/
theorem distance_previous {s last : Slot capacity} (h : s.previous ≠ last) :
    s.previous.distance last = s.distance last + 1 := by
  have hpos : s.previous.distance last ≠ 0 := fun h0 => h (eq_of_distance_eq_zero h0)
  have hlt := distance_lt s.previous last
  have ha := ahead_distance s.previous last
  obtain ⟨d, hd⟩ := Nat.exists_eq_succ_of_ne_zero hpos
  rw [hd, ← ahead_next, next_previous] at ha
  have hs := distance_ahead s (show d < slotCount capacity by omega)
  rw [ha] at hs
  omega

/-- From the next slot it is almost a whole round back. -/
theorem distance_next_self (s : Slot capacity) : s.next.distance s + 1 = slotCount capacity := by
  have hslots := two_mul_le_slotCount capacity
  have hnext : s.distance s.next = 1 := distance_ahead s (by omega)
  have hself := distance_self s
  rcases distance_add_distance s s.next s with hd | hd <;> omega

/-- A slot lies on the chain of a key when the search for the key visits it on the way to the
holder, which lies on the chain itself. -/
def OnChain (key : Nat) (holder s : Slot capacity) : Prop :=
  s.distance holder ≤ (home key).distance holder

instance (key : Nat) (holder s : Slot capacity) : Decidable (OnChain key holder s) :=
  Nat.decLe _ _

/-- The chain consists of the slots from the home of the key up to its holder. -/
theorem onChain_iff {key : Nat} {holder s : Slot capacity} :
    OnChain key holder s ↔
      ∃ steps ≤ (home key).distance holder, s = (home key).ahead steps := by
  have hlt := distance_lt (home key) holder
  constructor
  · intro h
    refine ⟨(home key).distance s, ?_, (ahead_distance _ _).symm⟩
    have hs := distance_lt (home key) s
    rcases distance_add_distance (home key) s holder with hd | hd
    · omega
    · rw [OnChain] at h
      omega
  · rintro ⟨steps, hsteps, rfl⟩
    have hs := distance_ahead (home key) (show steps < slotCount capacity by omega)
    rcases distance_add_distance (home key) ((home key).ahead steps) holder with hd | hd
    · rw [OnChain]
      omega
    · have hl := distance_lt ((home key).ahead steps) holder
      rw [OnChain]
      omega

end SourceFilter.Slot
