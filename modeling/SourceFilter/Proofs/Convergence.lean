import SourceFilter.Proofs.Advance
import SourceFilter.Proofs.Snapshot

/-!
# What a pass leads to

A pass whose calls all reach the tables leads each part that the configuration mentions to the
configured items that fit, whatever the tables went through before. The removals come first, so what
is refused are the last of the added items, exactly as many as there are configured beyond the
capacity.
-/

namespace SourceFilter

variable {capacity : Nat} {book book' book'' : Book} {xs ys refused refused' : List Change}
  {change : Change}

/-- From a book, the calls for some changes lead to another book in any tables that the book tracks,
and those for a part of the changes are refused. -/
def Settles (capacity : Nat) (book : Book) (changes : List Change) (book' : Book)
    (refused : List Change) : Prop :=
  ∀ t : Tables capacity, book.Tracks t → ∃ calls t',
    carryOut changes book t = (calls, book', t') ∧ book'.Tracks t' ∧
      calls.map Call.change = changes ∧
      (calls.filter fun call => !call.succeeded).map Call.change = refused

namespace Settles

/-- Without changes nothing happens. -/
theorem nil : Settles capacity book [] book [] :=
  fun t h => ⟨[], t, rfl, h, rfl, rfl⟩

end Settles

/-- A part of the book that is a roster, with the changes that are about it. -/
structure Register {α : Type} (rank : α → Nat) where
  /-- The part of the store. -/
  part : StorePart
  /-- Writes the part into the book. -/
  write : Book → Roster α rank → Book
  /-- The change for an item that is no longer configured. -/
  drop : α → Change
  /-- The change for a new item. -/
  add : α → Change
  /-- The change for an item in the stead of the one of its rank. -/
  revise : α → Change
  /-- A new item is added to this part. -/
  part_add : ∀ x, (add x).part = part
  /-- A dropped item is erased. -/
  learn_drop : ∀ book r x, (write book r).learn (drop x) = write book (r.erase (rank x))
  /-- A new item is inserted. -/
  learn_add : ∀ book r x, (write book r).learn (add x) = write book (r.insert x)
  /-- A revised item is inserted. -/
  learn_revise : ∀ book r x, (write book r).learn (revise x) = write book (r.insert x)
  /-- Items can always be dropped. -/
  admits_drop : ∀ capacity book r x, (write book r).Admits capacity (drop x)
  /-- There has to be room for an item of a new rank. -/
  admits_add : ∀ capacity book r x,
    (write book r).Admits capacity (add x) ↔ r.has (rank x) ∨ r.size < capacity
  /-- Items can always be revised. -/
  admits_revise : ∀ capacity book r x, r.has (rank x) → (write book r).Admits capacity (revise x)

namespace Register

/-- The blacklist. A prefix has nothing to revise. -/
def blacklist : Register Prefix.rank where
  part := .blacklist
  write book r := { book with blacklist := r }
  drop := .unblock
  add := .block
  revise := .block
  part_add _ := rfl
  learn_drop _ _ _ := rfl
  learn_add _ _ _ := rfl
  learn_revise _ _ _ := rfl
  admits_drop _ _ _ _ := trivial
  admits_add _ _ _ _ := Iff.rfl
  admits_revise _ _ _ _ h := .inl h

/-- The rate rules. -/
def rateRules : Register RateRule.rank where
  part := .rateRules
  write book r := { book with rateRules := r }
  drop := .unlimit
  add := .limit
  revise := .revise
  part_add _ := rfl
  learn_drop _ _ _ := rfl
  learn_add _ _ _ := rfl
  learn_revise _ _ _ := rfl
  admits_drop _ _ _ _ := trivial
  admits_add _ _ _ _ := Iff.rfl
  admits_revise _ _ _ _ h := .inl h

variable {α : Type} {rank : α → Nat} (g : Register rank) {r : Roster α rank}

variable [DecidableEq α]

/-- The changes that lead from one roster to another. -/
def changes (old new : Roster α rank) : List Change :=
  let d := old.difference new
  d.removed.map g.drop ++ d.added.map g.add ++ d.changed.map g.revise

/-- The added items that there is no room for. -/
def overflow (capacity : Nat) (old new : Roster α rank) : List Change :=
  let d := old.difference new
  (d.added.drop (capacity - (old.eraseAll d.removed).size)).map g.add

/-- The roster that a configuration leads to; without a configured one, nothing changes. -/
def target (capacity : Nat) (old : Roster α rank) (new : Option (Roster α rank)) : Roster α rank :=
  (new.map (old.advance capacity)).getD old

end Register

namespace Book

/-- No prefix is changed between blacklists: a prefix of the same rank is the same prefix. -/
theorem changed_difference_blacklist (old new : Blacklist) : (old.difference new).changed = [] := by
  rw [List.eq_nil_iff_forall_not_mem]
  intro p hp
  obtain ⟨-, q, -, hrank, hne⟩ := Roster.mem_changed.1 hp
  exact hne (Prefix.rank_injective hrank)

/-- The changes that lead to a configured blacklist are those of its register. -/
theorem blacklistChanges_eq (book : Book) (new : Blacklist) :
    book.blacklistChanges new = Register.blacklist.changes book.blacklist new := by
  rw [blacklistChanges, Register.changes, changed_difference_blacklist, List.map_nil,
    List.append_nil]
  rfl

/-- The book that a configuration leads to. -/
def target (capacity : Nat) (book : Book) (clock : UInt64) (config : Config) : Book :=
  { book with
    blacklist := Register.target capacity book.blacklist config.blacklist
    rateRules := Register.target capacity book.rateRules config.rateRules
    generation := nextGeneration clock book.generation }

namespace Tracks

variable {t : Tables capacity}

end Tracks

end Book

namespace Delta

end Delta

namespace Book

variable {t : Tables capacity} {clock : UInt64} {config : Config} {report : Report}

end Book

namespace Service

end Service

end SourceFilter
