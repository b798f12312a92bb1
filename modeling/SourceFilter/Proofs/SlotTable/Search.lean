import SourceFilter.Proofs.SlotTable.Ring
import Mathlib.Data.Fintype.Card

/-!
# Searches in slot tables

A table is sound when no key lies in two slots, no chain of a live key has an empty slot, and the
live slots are counted and not too many. In a sound table a search finds a key exactly where it
lies, however many tombstones lie on its chain. A search for a place ends at the first slot on the
way that may take the key; if there is none, no slot of the table may.
-/

namespace SourceFilter

/-- Whether a search for a place may take a slot with this mark. -/
def Mark.Free (reuse : Bool) (m : Mark) : Prop := m = .empty ∨ reuse = true ∧ m = .tombstone

/-- The key of a live mark. -/
def Mark.key? : Mark → Option Nat
  | .live key => some key
  | _ => none

/-- Only live marks have a key. -/
theorem Mark.key?_eq_some_iff {m : Mark} {key : Nat} : m.key? = some key ↔ m = .live key := by
  cases m <;> simp [key?]

namespace SlotTable

open Slot

variable {capacity : Nat} {V : Type} {marks : Vector Mark (slotCount capacity)} {key steps : Nat}

/-- What a vector holds after one place is set. -/
theorem get_set {α : Type} {n : Nat} (xs : Vector α n) (i j : Fin n) (x : α) :
    (xs.set i x).get j = if i = j then x else xs.get j := by
  change (xs.set i x)[j.val] = if i = j then x else xs[j.val]
  rw [Vector.getElem_set]
  exact if_congr Fin.ext_iff.symm rfl rfl

/-- A search that meets neither an empty slot nor the key before a slot with the key ends there. -/
theorem seek_eq_some {s : Slot capacity} {d : Nat} (hd : d < steps)
    (hkey : marks.get (s.ahead d) = .live key)
    (hclear : ∀ i < d, marks.get (s.ahead i) ≠ .empty ∧ marks.get (s.ahead i) ≠ .live key) :
    seek marks key steps s = some (s.ahead d) := by
  induction steps generalizing s d with
  | zero => exact absurd hd (Nat.not_lt_zero d)
  | succ steps ih =>
    rw [seek]
    cases d with
    | zero =>
      rw [ahead_zero] at hkey ⊢
      rw [hkey]
      exact if_pos rfl
    | succ d =>
      have hfirst := hclear 0 (Nat.succ_pos d)
      rw [ahead_zero] at hfirst
      have hrest : seek marks key steps s.next = some (s.ahead (d + 1)) := by
        rw [← ahead_next]
        apply ih (by omega)
        · rw [ahead_next]
          exact hkey
        · intro i hi
          rw [ahead_next]
          exact hclear (i + 1) (by omega)
      cases hm : marks.get s with
      | empty => exact absurd hm hfirst.1
      | tombstone => exact hrest
      | live k =>
        have hk : k ≠ key := fun h => hfirst.2 (h ▸ hm)
        simp only [if_neg hk]
        exact hrest

/-- A search for a place that meets the key ends there. -/
theorem land_of_seek_eq_some (reuse : Bool) {s found : Slot capacity}
    (h : seek marks key steps s = some found) (free : Option (Slot capacity)) :
    land reuse marks key steps s free = .present found := by
  induction steps generalizing s free with
  | zero => simp [seek] at h
  | succ steps ih =>
    rw [seek] at h
    rw [land]
    cases hm : marks.get s with
    | empty => simp [hm] at h
    | tombstone =>
      rw [hm] at h
      exact ih h _
    | live k =>
      rw [hm] at h
      by_cases hk : k = key
      · simp only [if_pos hk, Option.some.injEq] at h ⊢
        rw [h]
      · simp only [if_neg hk] at h ⊢
        exact ih h free

/-- The first place on a way of so many steps: a free slot with no empty one before it, or none
when no slot on the way is free. -/
def FirstFree (reuse : Bool) (marks : Vector Mark (slotCount capacity)) (steps : Nat)
    (s : Slot capacity) : Option (Slot capacity) → Prop
  | some found => (marks.get found).Free reuse ∧
      ∃ d < steps, found = s.ahead d ∧ ∀ i < d, marks.get (s.ahead i) ≠ .empty
  | none => ∀ i < steps, ¬(marks.get (s.ahead i)).Free reuse

/-- A slot that is not free may be put in front of the way. -/
theorem FirstFree.of_next {reuse : Bool} {s : Slot capacity} {r : Option (Slot capacity)}
    (h : FirstFree reuse marks steps s.next r) (hs : ¬(marks.get s).Free reuse) :
    FirstFree reuse marks (steps + 1) s r := by
  have hempty : marks.get s ≠ .empty := fun he => hs (.inl he)
  cases r with
  | none =>
    intro i hi
    cases i with
    | zero => rwa [ahead_zero]
    | succ i =>
      rw [← ahead_next]
      exact h i (by omega)
  | some found =>
    obtain ⟨hfree, d, hd, rfl, hclear⟩ := h
    refine ⟨hfree, d + 1, by omega, ahead_next s d, fun i hi => ?_⟩
    cases i with
    | zero => rwa [ahead_zero]
    | succ i =>
      rw [← ahead_next]
      exact hclear i (by omega)

/-- A search for a place that does not meet the key ends with the first place on the way, unless it
had one before. -/
theorem land_of_seek_eq_none (reuse : Bool) {s : Slot capacity}
    (h : seek marks key steps s = none) (free : Option (Slot capacity)) :
    ∃ r, land reuse marks key steps s free = .absent (free.or r) ∧
      FirstFree reuse marks steps s r := by
  induction steps generalizing s free with
  | zero =>
    refine ⟨none, ?_, fun i hi => absurd hi (Nat.not_lt_zero i)⟩
    rw [land, Option.or_none]
  | succ steps ih =>
    rw [seek] at h
    rw [land]
    have here (hf : (marks.get s).Free reuse) : FirstFree reuse marks (steps + 1) s (some s) :=
      ⟨hf, 0, Nat.succ_pos steps, (ahead_zero s).symm, fun i hi => absurd hi (Nat.not_lt_zero i)⟩
    cases hm : marks.get s with
    | empty => exact ⟨some s, rfl, here (.inl hm)⟩
    | tombstone =>
      rw [hm] at h
      cases reuse with
      | false =>
        obtain ⟨r, hr, hfirst⟩ := ih h free
        exact ⟨r, hr, hfirst.of_next (by simp [hm, Mark.Free])⟩
      | true =>
        obtain ⟨r, hr, -⟩ := ih h (free.or (some s))
        refine ⟨some s, ?_, here (.inr ⟨rfl, hm⟩)⟩
        simp only [if_true]
        rw [hr, Option.or_assoc, Option.some_or]
    | live k =>
      rw [hm] at h
      by_cases hk : k = key
      · simp [hk] at h
      · simp only [if_neg hk] at h ⊢
        obtain ⟨r, hr, hfirst⟩ := ih h free
        exact ⟨r, hr, hfirst.of_next (by simp [hm, Mark.Free])⟩

/-- No chain of a live key has an empty slot. -/
def Unbroken (marks : Vector Mark (slotCount capacity)) : Prop :=
  ∀ ⦃holder : Slot capacity⦄ ⦃key : Nat⦄, marks.get holder = .live key →
    ∀ s, OnChain key holder s → marks.get s ≠ .empty

/-- No key lies in two slots. -/
def Single (marks : Vector Mark (slotCount capacity)) : Prop :=
  ∀ ⦃i j : Slot capacity⦄ ⦃key : Nat⦄, marks.get i = .live key → marks.get j = .live key → i = j

/-- The slots with a live key. -/
def liveSlots (marks : Vector Mark (slotCount capacity)) : Finset (Slot capacity) :=
  Finset.univ.filter fun s => (marks.get s).key?.isSome

/-- A slot is live when it has a key. -/
theorem mem_liveSlots {s : Slot capacity} :
    s ∈ liveSlots marks ↔ ∃ key, marks.get s = .live key := by
  simp only [liveSlots, Finset.mem_filter, Finset.mem_univ, true_and, Option.isSome_iff_exists,
    Mark.key?_eq_some_iff]

/-- What holds of a table at all times. -/
structure Sound (t : SlotTable capacity V) : Prop where
  /-- No key lies in two slots. -/
  single : Single t.marks
  /-- No chain of a live key has an empty slot. -/
  unbroken : Unbroken t.marks
  /-- The live slots are counted. -/
  counted : t.size = (liveSlots t.marks).card
  /-- There are not more keys than allowed. -/
  bounded : t.size ≤ capacity

/-- The table without keys is sound. -/
theorem sound_empty [Inhabited V] : (empty : SlotTable capacity V).Sound := by
  have hget (s : Slot capacity) : (empty : SlotTable capacity V).marks.get s = .empty :=
    Vector.getElem_replicate s.isLt
  refine ⟨fun i j key hi _ => ?_, fun i key hi => ?_, ?_, Nat.zero_le capacity⟩
  · rw [hget] at hi
    cases hi
  · rw [hget] at hi
    cases hi
  · have hnone : liveSlots (empty : SlotTable capacity V).marks = ∅ := by
      apply Finset.eq_empty_of_forall_notMem
      intro s hs
      obtain ⟨key, hkey⟩ := mem_liveSlots.1 hs
      rw [hget] at hkey
      cases hkey
    rw [hnone]
    rfl

namespace Sound

variable {t : SlotTable capacity V}

/-- A search finds a key exactly where it lies. -/
theorem find?_eq_some_iff (h : t.Sound) {s : Slot capacity} :
    t.find? key = some s ↔ t.marks.get s = .live key := by
  refine ⟨get_of_find?, fun hs => ?_⟩
  have hd := distance_lt (home key) s
  have ha := ahead_distance (home key) s
  rw [find?, ← ha]
  apply seek_eq_some hd
  · rwa [ha]
  · intro i hi
    have hchain : OnChain key s ((home key).ahead i) :=
      onChain_iff.2 ⟨i, Nat.le_of_lt hi, rfl⟩
    refine ⟨h.unbroken hs _ hchain, fun hkey => ?_⟩
    have hi' := distance_ahead (home key) (show i < slotCount capacity by omega)
    rw [h.single hkey hs] at hi'
    omega

/-- A search finds nothing exactly when the key lies nowhere. -/
theorem find?_eq_none_iff (h : t.Sound) :
    t.find? key = none ↔ ∀ s, t.marks.get s ≠ .live key := by
  simp only [Option.eq_none_iff_forall_ne_some, ne_eq, h.find?_eq_some_iff]

/-- The value of a key is the one in its slot. -/
theorem get?_eq_some_iff (h : t.Sound) {v : V} :
    t.get? key = some v ↔ ∃ s, t.marks.get s = .live key ∧ t.values.get s = v := by
  simp only [get?, Option.map_eq_some_iff, h.find?_eq_some_iff]

end Sound

/-- A key is live exactly when it has a value. -/
theorem contains_eq_isSome (t : SlotTable capacity V) (key : Nat) :
    t.contains key = (t.get? key).isSome := by
  rw [contains, get?, Option.isSome_map]

/-- A key without a value lies nowhere. -/
theorem find?_eq_none_of_get? {t : SlotTable capacity V} (h : t.get? key = none) :
    t.find? key = none :=
  Option.map_eq_none_iff.1 h

end SlotTable
end SourceFilter
