import SourceFilter.Proofs.Advance

/-!
# Rosters on the way to another one

A roster that is led to another one item by item agrees with the new roster at the ranks that are
settled, and with the old one at all others, in whatever order the items come and whichever of them
are left out. The settled part of the difference is what leads from the old roster to the mixed one,
and the rest of it leads on to the new one.
-/

namespace SourceFilter

/-- The part of a difference whose items have a property. -/
def Difference.filter {α : Type} (d : Difference α) (p : α → Bool) : Difference α where
  removed := d.removed.filter p
  added := d.added.filter p
  changed := d.changed.filter p

/-- The ranks of all items of a difference. -/
def Difference.ranks {α : Type} (rank : α → Nat) (d : Difference α) : List Nat :=
  d.removed.map rank ++ d.added.map rank ++ d.changed.map rank

namespace Roster

variable {α : Type} {rank : α → Nat} {r old new : Roster α rank} {settled : List Nat} {x : α}
  {n : Nat}

/-- The roster agrees with the new one at the settled ranks, and with the old one elsewhere. -/
def Mixes (r old new : Roster α rank) (settled : List Nat) : Prop :=
  ∀ n, r.find? n = if n ∈ settled then new.find? n else old.find? n

/-- Rosters are equal when they have the same items at all ranks. -/
theorem eq_of_find? (h : ∀ n, r.find? n = old.find? n) : r = old := by
  obtain ⟨xs, hxs⟩ := r
  obtain ⟨ys, hys⟩ := old
  have hitems : xs = ys := by
    refine eq_of_mem_iff hxs hys fun x => ?_
    rw [mem_items_iff (r := ⟨xs, hxs⟩), mem_items_iff (r := ⟨ys, hys⟩), h]
  subst hitems
  rfl

namespace Mixes

/-- At first nothing is settled. -/
theorem start : old.Mixes old new [] := fun _ => (if_neg List.not_mem_nil).symm

/-- One more rank is settled when it gets what the new roster has there, and no other rank
changes. -/
theorem settle (h : r.Mixes old new settled) {r' : Roster α rank}
    (hn : r'.find? n = new.find? n) (hother : ∀ k, k ≠ n → r'.find? k = r.find? k) :
    r'.Mixes old new (settled ++ [n]) := by
  intro k
  simp only [List.mem_append, List.mem_singleton]
  by_cases hk : k = n
  · rw [if_pos (.inr hk), hk, hn]
  · simp only [hother k hk, h k, hk, or_false]

/-- A rank that the new roster lacks is settled when its item is erased. -/
theorem erase (h : r.Mixes old new settled) (hn : new.find? n = none) :
    (r.erase n).Mixes old new (settled ++ [n]) := by
  apply h.settle
  · rw [find?_erase, if_pos rfl, hn]
  · intro k hk
    rw [find?_erase, if_neg hk]

/-- The rank of a new item is settled when the item is inserted. -/
theorem insert (h : r.Mixes old new settled) (hx : x ∈ new.items) :
    (r.insert x).Mixes old new (settled ++ [rank x]) := by
  apply h.settle
  · rw [find?_insert, if_pos rfl, mem_items_iff.1 hx]
  · intro k hk
    rw [find?_insert, if_neg (Ne.symm hk)]

/-- Nothing changes on the way from a roster to itself. -/
theorem eq_self (h : r.Mixes old old settled) : r = old := by
  apply eq_of_find?
  intro n
  rw [h n, ite_self]

/-- At each rank there is what the old roster has there, or what the new one has. -/
theorem find?_eq_or (h : r.Mixes old new settled) (n : Nat) :
    r.find? n = old.find? n ∨ r.find? n = new.find? n := by
  rw [h n]
  split
  · exact .inr rfl
  · exact .inl rfl

end Mixes

section Difference

variable [DecidableEq α]

/-- A removed item is found in the old roster alone. -/
theorem mem_removed_iff_find? : x ∈ (old.difference new).removed ↔
    old.find? (rank x) = some x ∧ new.find? (rank x) = none := by
  rw [mem_removed, mem_items_iff, has, Option.not_isSome_iff_eq_none]

/-- An added item is found in the new roster alone. -/
theorem mem_added_iff_find? : x ∈ (old.difference new).added ↔
    new.find? (rank x) = some x ∧ old.find? (rank x) = none := by
  rw [mem_added, mem_items_iff, has, Option.not_isSome_iff_eq_none]

/-- A changed item is found in the new roster, and another one in the old roster. -/
theorem mem_changed_iff_find? : x ∈ (old.difference new).changed ↔
    new.find? (rank x) = some x ∧ ∃ y, old.find? (rank x) = some y ∧ y ≠ x := by
  rw [mem_changed, mem_items_iff]
  simp only [find?_eq_some_iff, and_assoc]

/-- Items are removed at the ranks that only the old roster has. -/
theorem mem_map_removed : n ∈ (old.difference new).removed.map rank ↔
    old.find? n ≠ none ∧ new.find? n = none := by
  simp only [List.mem_map, mem_removed_iff_find?, Option.ne_none_iff_exists']
  constructor
  · rintro ⟨x, ⟨hold, hnew⟩, rfl⟩
    exact ⟨⟨x, hold⟩, hnew⟩
  · rintro ⟨⟨x, hold⟩, hnew⟩
    obtain ⟨-, rfl⟩ := find?_eq_some_iff.1 hold
    exact ⟨x, ⟨hold, hnew⟩, rfl⟩

/-- Items are added at the ranks that only the new roster has. -/
theorem mem_map_added : n ∈ (old.difference new).added.map rank ↔
    old.find? n = none ∧ new.find? n ≠ none := by
  simp only [List.mem_map, mem_added_iff_find?, Option.ne_none_iff_exists']
  constructor
  · rintro ⟨x, ⟨hnew, hold⟩, rfl⟩
    exact ⟨hold, x, hnew⟩
  · rintro ⟨hold, x, hnew⟩
    obtain ⟨-, rfl⟩ := find?_eq_some_iff.1 hnew
    exact ⟨x, ⟨hnew, hold⟩, rfl⟩

/-- Items are changed at the ranks where both rosters have one, but not the same. -/
theorem mem_map_changed : n ∈ (old.difference new).changed.map rank ↔
    old.find? n ≠ none ∧ new.find? n ≠ none ∧ old.find? n ≠ new.find? n := by
  simp only [List.mem_map, mem_changed_iff_find?, Option.ne_none_iff_exists']
  constructor
  · rintro ⟨x, ⟨hnew, y, hold, hne⟩, rfl⟩
    refine ⟨⟨y, hold⟩, ⟨x, hnew⟩, fun heq => hne ?_⟩
    exact Option.some.inj (hold.symm.trans (heq.trans hnew))
  · rintro ⟨⟨y, hold⟩, ⟨x, hnew⟩, hne⟩
    obtain ⟨-, rfl⟩ := find?_eq_some_iff.1 hnew
    refine ⟨x, ⟨hnew, y, hold, fun heq => hne ?_⟩, rfl⟩
    rw [hold, hnew, heq]

/-- The parts of a difference are in ascending order. -/
theorem ascending_difference (old new : Roster α rank) :
    (old.difference new).removed.Pairwise (fun x y => rank x < rank y) ∧
      (old.difference new).added.Pairwise (fun x y => rank x < rank y) ∧
      (old.difference new).changed.Pairwise (fun x y => rank x < rank y) :=
  ⟨old.ascending.filter _, new.ascending.filter _, new.ascending.filter _⟩

/-- Rosters that agree at some ranks, and with two other rosters at the rest of them, have the part
of the difference of these that is about the rest. -/
theorem difference_eq_filter {r s : Roster α rank} {p : Nat → Bool}
    (hsame : ∀ n, p n = false → r.find? n = s.find? n)
    (hold : ∀ n, p n = true → r.find? n = old.find? n)
    (hnew : ∀ n, p n = true → s.find? n = new.find? n) :
    r.difference s = (old.difference new).filter fun x => p (rank x) := by
  obtain ⟨hr, ha, hc⟩ := ascending_difference r s
  obtain ⟨hr', ha', hc'⟩ := ascending_difference old new
  -- whether an item is in a part depends on what the rosters have at its rank, and no item is in
  -- a part when they have the same there
  have hpart (part : α → Option α → Option α → Prop) (hnot : ∀ x o, ¬ part x o o) (x : α) :
      part x (r.find? (rank x)) (s.find? (rank x)) ↔
        part x (old.find? (rank x)) (new.find? (rank x)) ∧ p (rank x) = true := by
    cases hx : p (rank x) with
    | true => rw [hold _ hx, hnew _ hx, and_iff_left rfl]
    | false =>
      rw [hsame _ hx]
      exact iff_of_false (hnot x _) fun h => Bool.false_ne_true h.2
  have hremoved : (r.difference s).removed =
      (old.difference new).removed.filter fun x => p (rank x) := by
    refine eq_of_mem_iff hr (hr'.filter _) fun x => ?_
    rw [List.mem_filter, mem_removed_iff_find?, mem_removed_iff_find?]
    exact hpart (fun x o n => o = some x ∧ n = none) (by simp +contextual) x
  have hadded : (r.difference s).added =
      (old.difference new).added.filter fun x => p (rank x) := by
    refine eq_of_mem_iff ha (ha'.filter _) fun x => ?_
    rw [List.mem_filter, mem_added_iff_find?, mem_added_iff_find?]
    exact hpart (fun x o n => n = some x ∧ o = none) (by simp +contextual) x
  have hchanged : (r.difference s).changed =
      (old.difference new).changed.filter fun x => p (rank x) := by
    refine eq_of_mem_iff hc (hc'.filter _) fun x => ?_
    rw [List.mem_filter, mem_changed_iff_find?, mem_changed_iff_find?]
    exact hpart (fun x o n => n = some x ∧ ∃ y, o = some y ∧ y ≠ x) (by simp +contextual) x
  rw [Difference.filter, ← hremoved, ← hadded, ← hchanged]

namespace Mixes

/-- What leads from the old roster to the mixed one is the settled part of the difference. -/
theorem difference_old (h : r.Mixes old new settled) :
    old.difference r = (old.difference new).filter fun x => rank x ∈ settled := by
  apply difference_eq_filter (p := fun n => n ∈ settled)
  · intro n hn
    rw [h n, if_neg (of_decide_eq_false hn)]
  · intro n _
    rfl
  · intro n hn
    rw [h n, if_pos (of_decide_eq_true hn)]

/-- What leads from the mixed roster to the new one is the rest of the difference. -/
theorem difference_new (h : r.Mixes old new settled) :
    r.difference new = (old.difference new).filter fun x => rank x ∉ settled := by
  apply difference_eq_filter (p := fun n => n ∉ settled)
  · intro n hn
    rw [h n, if_pos (Decidable.not_not.1 (of_decide_eq_false hn))]
  · intro n hn
    rw [h n, if_neg (of_decide_eq_true hn)]
  · intro n _
    rfl

end Mixes

/-- Two rosters disagree exactly at the ranks of their difference. -/
theorem mem_ranks_difference :
    n ∈ (old.difference new).ranks rank ↔ old.find? n ≠ new.find? n := by
  rw [Difference.ranks, List.mem_append, List.mem_append, mem_map_removed, mem_map_added,
    mem_map_changed]
  cases old.find? n <;> cases new.find? n <;> simp

/-- Each rank occurs in a difference only once. -/
theorem nodup_ranks_difference (old new : Roster α rank) :
    ((old.difference new).ranks rank).Nodup := by
  obtain ⟨hr, ha, hc⟩ := ascending_difference old new
  have hnodup {xs : List α} (h : xs.Pairwise fun x y => rank x < rank y) : (xs.map rank).Nodup :=
    List.pairwise_map.2 (h.imp fun hlt => Nat.ne_of_lt hlt)
  simp only [Difference.ranks, List.nodup_append', List.disjoint_left, List.mem_append,
    mem_map_removed, mem_map_added, mem_map_changed]
  refine ⟨⟨hnodup hr, hnodup ha, ?_⟩, hnodup hc, ?_⟩
  · rintro n ⟨hold, -⟩ ⟨hold', -⟩
    exact hold hold'
  · rintro n (⟨-, hnew⟩ | ⟨hold, -⟩) ⟨hold', hnew', -⟩
    · exact hnew' hnew
    · exact hold' hold

/-- There is no difference exactly between equal rosters. -/
theorem ranks_difference_eq_nil_iff : (old.difference new).ranks rank = [] ↔ old = new := by
  rw [List.eq_nil_iff_forall_not_mem]
  simp only [mem_ranks_difference, not_not]
  constructor
  · exact eq_of_find?
  · rintro rfl n
    rfl

end Difference

end Roster

end SourceFilter
