import SourceFilter.Roster
import Mathlib.Data.List.Induction
import Mathlib.Data.List.Nodup

/-!
# Members of rosters

A roster is determined by its members: no two of them have the same rank, so any list of the same
members without repetition is sorted into the roster's items.
-/

namespace SourceFilter.Roster

variable {α : Type} {rank : α → Nat} {r : Roster α rank} {x y : α} {n : Nat}

/-- Members of the same rank are the same. -/
theorem eq_of_rank_eq (hx : x ∈ r.items) (hy : y ∈ r.items) (h : rank x = rank y) : x = y := by
  rw [mem_items_iff] at hx hy
  rw [h] at hx
  exact Option.some.inj (hx.symm.trans hy)

/-- No member occurs twice. -/
theorem nodup_items (r : Roster α rank) : r.items.Nodup := by
  refine r.ascending.imp fun {x y} hlt heq => ?_
  rw [heq] at hlt
  exact Nat.lt_irrefl _ hlt

/-- What is found at a rank is the member of this rank. -/
theorem find?_eq_some_iff : r.find? n = some x ↔ x ∈ r.items ∧ rank x = n := by
  constructor
  · intro h
    have hrank : rank x = n := by simpa using List.find?_some h
    exact ⟨mem_items_iff.2 (hrank ▸ h), hrank⟩
  · rintro ⟨h, rfl⟩
    exact mem_items_iff.1 h

/-- There is an item of a rank when a member has it. -/
theorem has_iff : r.has n ↔ ∃ x ∈ r.items, rank x = n := by
  rw [has, Option.isSome_iff_exists]
  exact exists_congr fun x => find?_eq_some_iff

/-- The roster without items has no members. -/
theorem not_mem_empty : x ∉ (empty : Roster α rank).items := List.not_mem_nil

/-- An inserted item takes the place of the item of its rank. -/
theorem mem_insert : x ∈ (r.insert y).items ↔ x = y ∨ x ∈ r.items ∧ rank x ≠ rank y := by
  rw [mem_items_iff, find?_insert]
  by_cases h : rank y = rank x
  · rw [if_pos h]
    constructor
    · intro hx
      exact .inl (Option.some.inj hx).symm
    · rintro (rfl | ⟨-, hne⟩)
      · rfl
      · exact absurd h.symm hne
  · rw [if_neg h, ← mem_items_iff]
    constructor
    · intro hx
      exact .inr ⟨hx, Ne.symm h⟩
    · rintro (rfl | ⟨hx, -⟩)
      · exact absurd rfl h
      · exact hx

/-- Erasing takes out the item of the rank. -/
theorem mem_erase : x ∈ (r.erase n).items ↔ x ∈ r.items ∧ rank x ≠ n := by
  rw [mem_items_iff, find?_erase]
  by_cases h : rank x = n
  · simp [h]
  · rw [if_neg h, ← mem_items_iff]
    simp [h]

/-- The last item of a list comes last. -/
theorem ofList_concat (xs : List α) (x : α) :
    (ofList (xs ++ [x]) : Roster α rank) = (ofList xs).insert x :=
  List.foldl_concat _ _ _ _

/-- An item of a list is a member when no later item has its rank. -/
theorem mem_ofList {xs : List α} :
    x ∈ (ofList xs : Roster α rank).items ↔
      ∃ before after, xs = before ++ x :: after ∧ ∀ y ∈ after, rank y ≠ rank x := by
  induction xs using List.reverseRecOn with
  | nil =>
    constructor
    · intro h
      exact absurd h not_mem_empty
    · rintro ⟨before, after, h, -⟩
      exact absurd h.symm (List.append_ne_nil_of_right_ne_nil _ (List.cons_ne_nil _ _))
  | append_singleton xs y ih =>
    rw [ofList_concat, mem_insert, ih]
    constructor
    · rintro (rfl | ⟨⟨before, after, rfl, hlater⟩, hne⟩)
      · exact ⟨xs, [], rfl, nofun⟩
      · refine ⟨before, after ++ [y], by rw [List.append_assoc, List.cons_append], ?_⟩
        exact List.forall_mem_append.2 ⟨hlater, List.forall_mem_singleton.2 (Ne.symm hne)⟩
    · rintro ⟨before, after, h, hlater⟩
      rcases List.eq_nil_or_concat after with rfl | ⟨later, z, rfl⟩
      · have hlast : [y] = [x] := (List.append_inj' h rfl).2
        exact .inl (List.singleton_inj.1 hlast).symm
      · rw [List.concat_eq_append] at h hlater
        rw [← List.cons_append, ← List.append_assoc] at h
        obtain ⟨hxs, hlast⟩ := List.append_inj' h rfl
        obtain rfl := List.singleton_inj.1 hlast
        obtain ⟨hlater, hne⟩ := List.forall_mem_append.1 hlater
        exact .inr ⟨⟨before, later, hxs, hlater⟩, Ne.symm (hne y List.mem_cons_self)⟩

/-- If the rank tells items apart, the members are the items of the list. -/
theorem mem_ofList_of_injective (hrank : Function.Injective rank) {xs : List α} :
    x ∈ (ofList xs : Roster α rank).items ↔ x ∈ xs := by
  induction xs using List.reverseRecOn with
  | nil => exact Iff.rfl
  | append_singleton xs y ih =>
    rw [ofList_concat, mem_insert, ih, hrank.ne_iff, List.mem_append, List.mem_singleton]
    by_cases h : x = y <;> simp [h]

/-- Sorting by rank gives ascending ranks. -/
theorem pairwise_mergeSort (xs : List α) :
    (xs.mergeSort fun x y => rank x ≤ rank y).Pairwise fun x y => rank x ≤ rank y := by
  have hsorted : (xs.mergeSort fun x y => rank x ≤ rank y).Pairwise
      fun x y => decide (rank x ≤ rank y) = true := by
    apply List.pairwise_mergeSort
    · intro x y z hxy hyz
      simp only [decide_eq_true_eq] at hxy hyz ⊢
      exact Nat.le_trans hxy hyz
    · intro x y
      simp only [Bool.or_eq_true, decide_eq_true_eq]
      exact Nat.le_total _ _
  exact hsorted.imp of_decide_eq_true

/-- The members of a list without repetition, whose ranks tell them apart, are sorted in one way. -/
theorem mergeSort_eq_of_pairwise {xs ys : List α} (hnodup : xs.Nodup) (hnodup' : ys.Nodup)
    (hmem : ∀ x, x ∈ xs ↔ x ∈ ys) (hrank : ∀ x ∈ ys, ∀ y ∈ ys, rank x = rank y → x = y)
    (hsorted : ys.Pairwise fun x y => rank x ≤ rank y) :
    xs.mergeSort (fun x y => rank x ≤ rank y) = ys := by
  have hperm : (xs.mergeSort fun x y => rank x ≤ rank y).Perm ys :=
    (List.mergeSort_perm _ _).trans ((List.perm_ext_iff_of_nodup hnodup hnodup').2 hmem)
  refine hperm.eq_of_pairwise (fun x y hx hy hxy hyx => ?_) (pairwise_mergeSort xs) hsorted
  exact hrank x (hperm.mem_iff.1 hx) y hy (Nat.le_antisymm hxy hyx)

/-- Sorting the members gives the items. -/
theorem mergeSort_eq {xs : List α} (hnodup : xs.Nodup) (hmem : ∀ x, x ∈ xs ↔ x ∈ r.items) :
    xs.mergeSort (fun x y => rank x ≤ rank y) = r.items :=
  mergeSort_eq_of_pairwise hnodup r.nodup_items hmem (fun _ hx _ hy => eq_of_rank_eq hx hy)
    (r.ascending.imp Nat.le_of_lt)

/-- Two lists of the same members without repetition, whose ranks tell them apart, are sorted
alike. -/
theorem mergeSort_congr {xs ys : List α} (hnodup : xs.Nodup) (hnodup' : ys.Nodup)
    (hmem : ∀ x, x ∈ xs ↔ x ∈ ys) (hrank : ∀ x ∈ ys, ∀ y ∈ ys, rank x = rank y → x = y) :
    xs.mergeSort (fun x y => rank x ≤ rank y) = ys.mergeSort fun x y => rank x ≤ rank y := by
  have hmem' (x : α) : x ∈ xs ↔ x ∈ ys.mergeSort fun x y => rank x ≤ rank y := by
    rw [hmem, List.mem_mergeSort]
  refine mergeSort_eq_of_pairwise hnodup ((List.mergeSort_perm _ _).nodup_iff.2 hnodup') hmem'
    (fun x hx y hy => ?_) (pairwise_mergeSort ys)
  exact hrank x (List.mem_mergeSort.1 hx) y (List.mem_mergeSort.1 hy)

end SourceFilter.Roster
