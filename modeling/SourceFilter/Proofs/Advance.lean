import SourceFilter.Proofs.Roster
import Mathlib.Data.List.Sort

/-!
# Advancing rosters with limited room

A roster advances to another one when the items of foreign rank are erased, as many of the added
items are inserted as there is room for, and the changed items replace those of their rank. What
comes out are the configured items whose rank was there already, and the first of the others.
-/

namespace SourceFilter

namespace Roster

variable {α : Type} {rank : α → Nat} {r old new : Roster α rank} {x : α}

/-- The roster without the items of the ranks of a list. -/
def eraseAll (r : Roster α rank) (xs : List α) : Roster α rank :=
  xs.foldl (fun r x => r.erase (rank x)) r

/-- The roster with the items of a list. -/
def insertAll (r : Roster α rank) (xs : List α) : Roster α rank :=
  xs.foldl (fun r x => r.insert x) r

/-- Lists in ascending order of rank are equal when they have the same members. -/
theorem eq_of_mem_iff {xs ys : List α} (hxs : xs.Pairwise fun x y => rank x < rank y)
    (hys : ys.Pairwise fun x y => rank x < rank y) (h : ∀ x, x ∈ xs ↔ x ∈ ys) : xs = ys := by
  have : Std.Irrefl fun x y : α => rank x < rank y := ⟨fun x => Nat.lt_irrefl (rank x)⟩
  have : Std.Antisymm fun x y : α => rank x < rank y :=
    ⟨fun x y hlt hlt' => absurd hlt (Nat.lt_asymm hlt')⟩
  exact hxs.eq_of_mem_iff hys h

section Difference

variable [DecidableEq α]

/-- A removed item is an old one whose rank the new roster lacks. -/
theorem mem_removed : x ∈ (old.difference new).removed ↔ x ∈ old.items ∧ ¬ new.has (rank x) := by
  simp [difference]

/-- An added item is a new one whose rank the old roster lacks. -/
theorem mem_added : x ∈ (old.difference new).added ↔ x ∈ new.items ∧ ¬ old.has (rank x) := by
  simp [difference]

/-- A changed item is a new one that is not the old one of its rank. -/
theorem mem_changed : x ∈ (old.difference new).changed ↔
    x ∈ new.items ∧ ∃ y ∈ old.items, rank y = rank x ∧ y ≠ x := by
  simp only [difference, List.mem_filter]
  refine and_congr_right fun _ => ?_
  cases hfind : old.find? (rank x) with
  | none =>
    constructor
    · nofun
    · rintro ⟨y, hy, hrank, -⟩
      rw [find?_eq_some_iff.2 ⟨hy, hrank⟩] at hfind
      cases hfind
  | some y =>
    obtain ⟨hy, hrank⟩ := find?_eq_some_iff.1 hfind
    simp only [bne_iff_ne]
    constructor
    · intro hne
      exact ⟨y, hy, hrank, hne⟩
    · rintro ⟨z, hz, hrank', hne⟩
      rwa [eq_of_rank_eq hy hz (hrank.trans hrank'.symm)]

/-- What becomes of the old roster when it is led to the new one with limited room. -/
def advance (capacity : Nat) (old new : Roster α rank) : Roster α rank :=
  let d := old.difference new
  let kept := old.eraseAll d.removed
  (kept.insertAll (d.added.take (capacity - kept.size))).insertAll d.changed

end Difference

end Roster

end SourceFilter
