import SourceFilter.Proofs.SlotTable.Search
import Mathlib.Logic.Function.Basic

/-!
# Placing keys in slot tables

Placing a key changes the value of this key alone and keeps a table sound: the place that a search
ends with has no empty slot before it, so the chain of the new key is unbroken. A table that holds
fewer keys than it may always has a place. As long as no key is removed there are no tombstones,
and the slots that were never used keep the fresh value.
-/

namespace SourceFilter.SlotTable

open Slot

variable {capacity : Nat} {V : Type} {t : SlotTable capacity V} {key : Nat} {s : Slot capacity}

/-- A sound table that holds what another one holds, but for the value of one key. -/
structure Revises (t' t : SlotTable capacity V) (key : Nat) (value : Option V) : Prop where
  /-- The table is sound. -/
  sound : t'.Sound
  /-- One key has the value, all others are as they were. -/
  get?_eq : t'.get? = Function.update t.get? key value

/-- A slot where a key may be placed: it is free, and a search for the key gets there. -/
structure Place (reuse : Bool) (marks : Vector Mark (slotCount capacity)) (key : Nat)
    (s : Slot capacity) : Prop where
  /-- The slot is free. -/
  free : (marks.get s).Free reuse
  /-- No slot before it on the way from the home of the key is empty. -/
  clear : ∀ s', OnChain key s s' → s' ≠ s → marks.get s' ≠ .empty

/-- A free slot has no key. -/
theorem Place.not_live {reuse : Bool} {marks : Vector Mark (slotCount capacity)}
    (h : Place reuse marks key s) (k : Nat) : marks.get s ≠ .live k := by
  intro hk
  rcases h.free with he | ⟨-, he⟩ <;> simp [he] at hk

/-- For an absent key, a search finds a place, or no slot of the table is free. -/
theorem landing_of_find?_eq_none (reuse : Bool) (h : t.find? key = none) :
    (∃ s, t.landing reuse key = .absent (some s) ∧ Place reuse t.marks key s) ∨
      t.landing reuse key = .absent none ∧ ∀ s, ¬(t.marks.get s).Free reuse := by
  obtain ⟨r, hr, hfirst⟩ := land_of_seek_eq_none reuse h none
  rw [Option.none_or] at hr
  cases r with
  | none =>
    refine .inr ⟨hr, fun s => ?_⟩
    rw [← ahead_distance (home key) s]
    exact hfirst _ (distance_lt _ _)
  | some s =>
    obtain ⟨hfree, d, hd, rfl, hclear⟩ := hfirst
    refine .inl ⟨_, hr, hfree, fun s' hs' hne => ?_⟩
    obtain ⟨i, hi, rfl⟩ := onChain_iff.1 hs'
    rw [distance_ahead _ hd] at hi
    have hid : i ≠ d := fun h => hne (congrArg _ h)
    exact hclear i (by omega)

/-- For a live key, a search ends at the key. -/
theorem landing_of_find?_eq_some (reuse : Bool) (h : t.find? key = some s) :
    t.landing reuse key = .present s :=
  land_of_seek_eq_some reuse h none

/-- Not all slots of a table are live. -/
theorem Sound.exists_not_live (h : t.Sound) : ∃ s, ∀ k, t.marks.get s ≠ .live k := by
  by_contra hall
  have hall' : liveSlots t.marks = Finset.univ := by
    apply Finset.eq_univ_of_forall
    intro s
    by_contra hs
    exact hall ⟨s, fun k hk => hs (mem_liveSlots.2 ⟨k, hk⟩)⟩
  have hcount := h.counted
  have hbound := h.bounded
  have hslots := two_mul_le_slotCount capacity
  rw [hall', Finset.card_univ, Fintype.card_fin] at hcount
  omega

/-- The marks after a key took a slot. -/
theorem get_marks_occupy (t : SlotTable capacity V) (s : Slot capacity) (key : Nat) (value : V)
    (i : Slot capacity) :
    (t.occupy s key value).marks.get i = if s = i then .live key else t.marks.get i :=
  get_set t.marks s i _

/-- The values after a key took a slot. -/
theorem get_values_occupy (t : SlotTable capacity V) (s : Slot capacity) (key : Nat) (value : V)
    (i : Slot capacity) :
    (t.occupy s key value).values.get i = if s = i then value else t.values.get i :=
  get_set t.values s i _

/-- A key that took a slot is live there, all others are where they were. -/
theorem liveSlots_occupy (t : SlotTable capacity V) (s : Slot capacity) (key : Nat) (value : V) :
    liveSlots (t.occupy s key value).marks = insert s (liveSlots t.marks) := by
  ext i
  rw [Finset.mem_insert, mem_liveSlots, mem_liveSlots]
  by_cases hs : s = i
  · have hkey : (t.occupy s key value).marks.get i = .live key := by
      rw [get_marks_occupy, if_pos hs]
    exact iff_of_true ⟨key, hkey⟩ (.inl hs.symm)
  · simp only [get_marks_occupy, if_neg hs, Ne.symm hs, false_or]

/-- A key in a place keeps the table sound. -/
theorem Sound.occupy {reuse : Bool} (h : t.Sound) (hnone : t.find? key = none)
    (hplace : Place reuse t.marks key s) (hroom : t.size < capacity) (value : V) :
    (t.occupy s key value).Sound := by
  have habsent := h.find?_eq_none_iff.1 hnone
  refine ⟨fun i j k hi hj => ?_, fun i k hi s' hs' => ?_, ?_, hroom⟩
  · rw [get_marks_occupy] at hi hj
    split at hi <;> split at hj
    next h1 h2 => exact h1.symm.trans h2
    next h1 h2 =>
      cases hi
      exact absurd hj (habsent j)
    next h1 h2 =>
      cases hj
      exact absurd hi (habsent i)
    next h1 h2 => exact h.single hi hj
  · rw [get_marks_occupy] at hi ⊢
    by_cases hs : s = s'
    · rw [if_pos hs]
      exact Mark.noConfusion
    · rw [if_neg hs]
      split at hi
      next h1 =>
        cases hi
        exact hplace.clear s' (h1 ▸ hs') (Ne.symm hs)
      next h1 => exact h.unbroken hi s' hs'
  · have hnew : s ∉ liveSlots t.marks := fun hs => by
      obtain ⟨k, hk⟩ := mem_liveSlots.1 hs
      exact hplace.not_live k hk
    have hsize : (t.occupy s key value).size = t.size + 1 := rfl
    rw [hsize, liveSlots_occupy, Finset.card_insert_of_notMem hnew, h.counted]

/-- A key in a place has its value, and all other keys keep theirs. -/
theorem Sound.revises_occupy {reuse : Bool} (h : t.Sound) (hnone : t.find? key = none)
    (hplace : Place reuse t.marks key s) (hroom : t.size < capacity) (value : V) :
    (t.occupy s key value).Revises t key (some value) := by
  have hsound := h.occupy hnone hplace hroom value
  refine ⟨hsound, funext fun k => Option.ext fun v => ?_⟩
  rw [hsound.get?_eq_some_iff, Function.update_apply]
  by_cases hk : k = key
  · rw [if_pos hk]
    constructor
    · rintro ⟨i, hi, rfl⟩
      rw [get_marks_occupy] at hi
      rw [get_values_occupy]
      split at hi
      next hs => rw [if_pos hs]
      next hs => exact absurd (hk ▸ hi) (h.find?_eq_none_iff.1 hnone i)
    · intro hv
      refine ⟨s, ?_, ?_⟩
      · rw [get_marks_occupy, if_pos rfl, hk]
      · rw [get_values_occupy, if_pos rfl]
        exact Option.some.inj hv
  · rw [if_neg hk, h.get?_eq_some_iff]
    constructor
    · rintro ⟨i, hi, rfl⟩
      rw [get_marks_occupy] at hi
      rw [get_values_occupy]
      split at hi
      next hs =>
        cases hi
        exact absurd rfl hk
      next hs => exact ⟨i, hi, (if_neg hs).symm⟩
    · rintro ⟨i, hi, rfl⟩
      have hs : s ≠ i := fun hs => hplace.not_live k (hs ▸ hi)
      refine ⟨i, ?_, ?_⟩
      · rw [get_marks_occupy, if_neg hs, hi]
      · rw [get_values_occupy, if_neg hs]

/-- Another value in the slot of a key is another value of this key alone. -/
theorem Sound.revises_setValue (h : t.Sound) (hs : t.marks.get s = .live key) (value : V) :
    Revises { t with values := t.values.set s value s.isLt } t key (some value) := by
  have hsound : Sound { t with values := t.values.set s value s.isLt } :=
    ⟨h.single, h.unbroken, h.counted, h.bounded⟩
  refine ⟨hsound, funext fun k => Option.ext fun v => ?_⟩
  rw [hsound.get?_eq_some_iff, Function.update_apply]
  simp only [get_set]
  by_cases hk : k = key
  · rw [if_pos hk]
    constructor
    · rintro ⟨i, hi, rfl⟩
      rw [if_pos (h.single hs (hk ▸ hi))]
    · intro hv
      exact ⟨s, hk ▸ hs, by rw [if_pos rfl]; exact Option.some.inj hv⟩
  · rw [if_neg hk, h.get?_eq_some_iff]
    refine exists_congr fun i => and_congr_right fun hi => ?_
    have hne : s ≠ i := fun hsi => hk (Mark.live.inj (hi.symm.trans (hsi ▸ hs)))
    rw [if_neg hne]

/-- Changing the value of a live key. -/
theorem Sound.revises_modify (h : t.Sound) {v : V} (hv : t.get? key = some v) (f : V → V) :
    (t.modify key f).Revises t key (some (f v)) := by
  obtain ⟨s, hs, rfl⟩ := h.get?_eq_some_iff.1 hv
  rw [modify, h.find?_eq_some_iff.2 hs]
  exact h.revises_setValue hs _

/-- Changing the value of an absent key changes nothing. -/
theorem modify_of_get?_eq_none (hv : t.get? key = none) (f : V → V) : t.modify key f = t := by
  rw [modify, find?_eq_none_of_get? hv]

section Put

variable [Inhabited V]

/-- A live key is initialised in place. -/
theorem Sound.put_of_get?_eq_some (h : t.Sound) {v : V} (hv : t.get? key = some v)
    (init : V → V) :
    ∃ t', t.put key init = (.found, t') ∧ t'.Revises t key (some (init v)) ∧ t'.size = t.size := by
  obtain ⟨s, hs, rfl⟩ := h.get?_eq_some_iff.1 hv
  rw [put, landing_of_find?_eq_some true (h.find?_eq_some_iff.2 hs)]
  exact ⟨_, rfl, h.revises_setValue hs _, rfl⟩

/-- An absent key finds a place as long as there is room, and starts from the fresh value. -/
theorem Sound.put_of_room (h : t.Sound) (hv : t.get? key = none) (hroom : t.size < capacity)
    (init : V → V) :
    ∃ t', t.put key init = (.created, t') ∧ t'.Revises t key (some (init default)) ∧
      t'.size = t.size + 1 := by
  have hnone := find?_eq_none_of_get? hv
  rcases landing_of_find?_eq_none true hnone with ⟨s, hs, hplace⟩ | ⟨-, hall⟩
  · simp only [put, hs, if_neg (Nat.not_le.2 hroom)]
    exact ⟨_, rfl, h.revises_occupy hnone hplace hroom _, rfl⟩
  · obtain ⟨s, hs⟩ := h.exists_not_live
    cases hm : t.marks.get s with
    | empty => exact absurd (.inl hm) (hall s)
    | tombstone => exact absurd (.inr ⟨rfl, hm⟩) (hall s)
    | live k => exact absurd hm (hs k)

/-- An absent key is turned away from a table without room, which stays as it is. -/
theorem put_of_full (hv : t.get? key = none) (hfull : capacity ≤ t.size) (init : V → V) :
    t.put key init = (.full, t) := by
  rcases landing_of_find?_eq_none true (find?_eq_none_of_get? hv) with ⟨s, hs, -⟩ | ⟨hs, -⟩
  · simp only [put, hs, if_pos hfull]
  · simp only [put, hs]

end Put

section Claim

/-- A live key is found as it is. -/
theorem claim_of_get?_eq_some {v : V} (hv : t.get? key = some v) (init : V → V) :
    t.claim key init = (.found, t) := by
  obtain ⟨s, hs, -⟩ := Option.map_eq_some_iff.1 hv
  simp only [claim, landing_of_find?_eq_some false hs]

/-- An absent key is turned away from a table without room, which stays as it is. -/
theorem claim_of_full (hv : t.get? key = none) (hfull : capacity ≤ t.size) (init : V → V) :
    t.claim key init = (.full, t) := by
  rcases landing_of_find?_eq_none false (find?_eq_none_of_get? hv) with ⟨s, hs, -⟩ | ⟨hs, -⟩
  · simp only [claim, hs, if_pos hfull]
  · simp only [claim, hs]

/-- An absent key is turned away when no slot is empty, and the table stays as it is. -/
theorem claim_of_no_empty (hv : t.get? key = none) (hempty : ∀ s, t.marks.get s ≠ .empty)
    (init : V → V) : t.claim key init = (.full, t) := by
  rcases landing_of_find?_eq_none false (find?_eq_none_of_get? hv) with ⟨s, -, hplace⟩ | ⟨hs, -⟩
  · exact absurd (hplace.free.resolve_right fun hf => Bool.false_ne_true hf.1) (hempty s)
  · simp only [claim, hs]

/-- If there is room and a slot is empty, an absent key takes an empty slot, and starts from what
lies there. -/
theorem claim_of_empty (hv : t.get? key = none) (hroom : t.size < capacity)
    (hempty : ∃ s, t.marks.get s = .empty) (init : V → V) :
    ∃ s, t.marks.get s = .empty ∧ Place false t.marks key s ∧
      t.claim key init = (.created, t.occupy s key (init (t.values.get s))) := by
  rcases landing_of_find?_eq_none false (find?_eq_none_of_get? hv) with ⟨s, hs, hplace⟩ | ⟨-, hall⟩
  · refine ⟨s, hplace.free.resolve_right fun hf => Bool.false_ne_true hf.1, hplace, ?_⟩
    simp only [claim, hs, if_neg (Nat.not_le.2 hroom)]
  · obtain ⟨s, hs⟩ := hempty
    exact absurd (.inl hs) (hall s)

/-- Without tombstones some slot is empty. -/
theorem Sound.exists_empty (h : t.Sound) (hburied : ∀ s, t.marks.get s ≠ .tombstone) :
    ∃ s, t.marks.get s = .empty := by
  obtain ⟨s, hs⟩ := h.exists_not_live
  refine ⟨s, ?_⟩
  cases hm : t.marks.get s with
  | empty => rfl
  | tombstone => exact absurd hm (hburied s)
  | live k => exact absurd hm (hs k)

/-- A table that no key was removed from: there are no tombstones, and the slots that were never
used hold the fresh value. -/
structure Pristine [Inhabited V] (t : SlotTable capacity V) : Prop where
  /-- No key was removed. -/
  unburied : ∀ s, t.marks.get s ≠ .tombstone
  /-- Slots that were never used are fresh. -/
  fresh : ∀ s, t.marks.get s = .empty → t.values.get s = default

variable [Inhabited V]

/-- The table without keys is pristine. -/
theorem pristine_empty : (empty : SlotTable capacity V).Pristine := by
  refine ⟨fun s hs => ?_, fun s _ => Vector.getElem_replicate s.isLt⟩
  have hget : (empty : SlotTable capacity V).marks.get s = .empty :=
    Vector.getElem_replicate s.isLt
  rw [hget] at hs
  cases hs

/-- In a pristine table an absent key gets a slot that was never used as long as there is room, and
starts from the fresh value. -/
theorem Sound.claim_of_room (h : t.Sound) (hp : t.Pristine) (hv : t.get? key = none)
    (hroom : t.size < capacity) (init : V → V) :
    ∃ t', t.claim key init = (.created, t') ∧ t'.Revises t key (some (init default)) ∧
      t'.Pristine := by
  obtain ⟨s, hempty, hplace, hclaim⟩ :=
    claim_of_empty hv hroom (h.exists_empty hp.unburied) init
  rw [hp.fresh s hempty] at hclaim
  have hnone := find?_eq_none_of_get? hv
  refine ⟨_, hclaim, h.revises_occupy hnone hplace hroom _, fun i hi => ?_, fun i hi => ?_⟩
  · rw [get_marks_occupy] at hi
    split at hi
    next => cases hi
    next => exact hp.unburied i hi
  · rw [get_marks_occupy] at hi
    rw [get_values_occupy]
    split at hi
    next => cases hi
    next hne =>
      rw [if_neg hne]
      exact hp.fresh i hi

/-- Changing a value keeps a table pristine. -/
theorem Pristine.modify (hp : t.Pristine) (key : Nat) (f : V → V) : (t.modify key f).Pristine := by
  rw [SlotTable.modify]
  split
  next => exact hp
  next s hs =>
    refine ⟨hp.unburied, fun i hi => ?_⟩
    have hne : s ≠ i := fun hsi => by
      have hlive := get_of_find? hs
      rw [hsi] at hlive
      cases hlive.symm.trans hi
    refine (get_set t.values s i _).trans ?_
    rw [if_neg hne]
    exact hp.fresh i hi

end Claim

end SourceFilter.SlotTable
