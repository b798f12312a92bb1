/-!
# Rosters

A roster holds items in strictly ascending order of their rank, so it has at most one item of each
rank and is determined by what `find?` answers at every rank. It serves as a finite set when the
rank tells items apart, and as a finite map from ranks otherwise: inserting an item replaces the
item of the same rank.
-/

namespace SourceFilter

/-- Items in strictly ascending order of rank. -/
structure Roster (α : Type) (rank : α → Nat) where
  /-- The items, the lowest rank first. -/
  items : List α := []
  /-- Ranks ascend strictly. -/
  ascending : items.Pairwise (fun x y => rank x < rank y) := by exact List.Pairwise.nil

namespace Roster

variable {α : Type} {rank : α → Nat}

/-- Puts an item at its place, in the stead of the item of the same rank. -/
def place (rank : α → Nat) (x : α) : List α → List α
  | [] => [x]
  | y :: ys =>
    if rank x < rank y then x :: y :: ys
    else if rank x = rank y then x :: ys
    else y :: place rank x ys

/-- A placed item comes from the argument or from the list. -/
theorem mem_place {x z : α} {xs : List α} (h : z ∈ place rank x xs) : z = x ∨ z ∈ xs := by
  induction xs with
  | nil => simpa [place] using h
  | cons y ys ih =>
    rw [place] at h
    split at h
    · simpa using h
    · split at h
      · rcases List.mem_cons.1 h with rfl | h
        · exact .inl rfl
        · exact .inr (List.mem_cons_of_mem _ h)
      · rcases List.mem_cons.1 h with rfl | h
        · exact .inr List.mem_cons_self
        · exact (ih h).imp_right (List.mem_cons_of_mem _)

/-- Placing keeps the order. -/
theorem ascending_place (x : α) {xs : List α}
    (h : xs.Pairwise (fun x y => rank x < rank y)) :
    (place rank x xs).Pairwise (fun x y => rank x < rank y) := by
  induction xs with
  | nil => simp [place]
  | cons y ys ih =>
    obtain ⟨hy, hys⟩ := List.pairwise_cons.1 h
    rw [place]
    split
    next hlt =>
      refine List.pairwise_cons.2 ⟨fun z hz => ?_, h⟩
      rcases List.mem_cons.1 hz with rfl | hz
      · exact hlt
      · exact Nat.lt_trans hlt (hy z hz)
    next hlt =>
      split
      next heq => exact List.pairwise_cons.2 ⟨fun z hz => heq ▸ hy z hz, hys⟩
      next hne =>
        refine List.pairwise_cons.2 ⟨fun z hz => ?_, ih hys⟩
        rcases mem_place hz with rfl | hz
        · omega
        · exact hy z hz

/-- The roster without items. -/
def empty : Roster α rank := {}

/-- The roster with one more item, which replaces the item of the same rank. -/
def insert (x : α) (r : Roster α rank) : Roster α rank :=
  ⟨place rank x r.items, ascending_place x r.ascending⟩

/-- The roster without the item of the given rank. -/
def erase (n : Nat) (r : Roster α rank) : Roster α rank :=
  ⟨r.items.filter (rank · != n), r.ascending.filter _⟩

/-- The item of the given rank. -/
def find? (n : Nat) (r : Roster α rank) : Option α := r.items.find? (rank · == n)

/-- Whether there is an item of the given rank. -/
def has (n : Nat) (r : Roster α rank) : Bool := (r.find? n).isSome

/-- How many items there are. -/
def size (r : Roster α rank) : Nat := r.items.length

/-- The items of a list; of two with the same rank the later one counts. -/
def ofList (xs : List α) : Roster α rank := xs.foldl (fun r x => r.insert x) empty

/-- The first item of a rank, after placing. -/
theorem find?_place (x : α) (xs : List α) (h : xs.Pairwise (fun x y => rank x < rank y))
    (n : Nat) :
    (place rank x xs).find? (rank · == n) =
      if rank x = n then some x else xs.find? (rank · == n) := by
  induction xs with
  | nil => simp only [place, List.find?_cons, List.find?_nil]; split <;> simp_all
  | cons y ys ih =>
    obtain ⟨hy, hys⟩ := List.pairwise_cons.1 h
    rw [place]
    split
    next => rw [List.find?_cons]; split <;> simp_all
    next =>
      split
      next heq =>
        rw [List.find?_cons, List.find?_cons, heq]
        cases hb : rank y == n with
        | true => rw [if_pos (by simpa using hb)]
        | false => rw [if_neg (by simpa using hb)]
      next hne =>
        rw [List.find?_cons, List.find?_cons, ih hys]
        split
        next hyn =>
          rw [if_neg]
          intro hxn
          have : rank y = n := by simpa using hyn
          omega
        next => rfl

/-- An inserted item is found at its rank; elsewhere nothing changes. -/
theorem find?_insert (x : α) (r : Roster α rank) (n : Nat) :
    (r.insert x).find? n = if rank x = n then some x else r.find? n :=
  find?_place x r.items r.ascending n

/-- An erased rank has no item; elsewhere nothing changes. -/
theorem find?_erase (k : Nat) (r : Roster α rank) (n : Nat) :
    (r.erase k).find? n = if n = k then none else r.find? n := by
  simp only [find?, erase, List.find?_filter]
  split
  next h =>
    subst h
    rw [List.find?_eq_none]
    simp_all
  next h =>
    refine congrArg (fun p => List.find? p r.items) (funext fun x => ?_)
    by_cases hx : rank x = n <;> simp_all

/-- The items are what is found at their ranks. -/
theorem mem_items_iff {r : Roster α rank} {x : α} : x ∈ r.items ↔ r.find? (rank x) = some x := by
  obtain ⟨xs, h⟩ := r
  simp only [find?]
  constructor
  · intro hx
    induction xs with
    | nil => cases hx
    | cons y ys ih =>
      obtain ⟨hy, hys⟩ := List.pairwise_cons.1 h
      rcases List.mem_cons.1 hx with rfl | hx
      · simp
      · have hlt := hy x hx
        rw [List.find?_cons, show (rank y == rank x) = false by simp; omega]
        exact ih hys hx
  · exact List.mem_of_find?_eq_some

end Roster

/-- What leads from one roster to another, each part in ascending order of rank. -/
structure Difference (α : Type) where
  /-- Items of the old roster whose rank the new one lacks. -/
  removed : List α
  /-- Items of the new roster whose rank the old one lacks. -/
  added : List α
  /-- Items of the new roster that differ from the old one's item of the same rank. -/
  changed : List α
  deriving DecidableEq, Repr

namespace Difference

variable {α : Type}

/-- Whether nothing has to be done. -/
def isEmpty (d : Difference α) : Bool :=
  d.removed.isEmpty && d.added.isEmpty && d.changed.isEmpty

end Difference

namespace Roster

variable {α : Type} {rank : α → Nat}

/-- What leads from the old roster to the new one. -/
def difference [DecidableEq α] (old new : Roster α rank) : Difference α where
  removed := old.items.filter fun x => !new.has (rank x)
  added := new.items.filter fun x => !old.has (rank x)
  changed := new.items.filter fun x =>
    match old.find? (rank x) with
    | none => false
    | some y => y != x

end Roster
end SourceFilter
