import SourceFilter.Proofs.SlotTable.Tombstones

/-!
# Slot tables that keys are added to in two ways

The two ways to add a key may be mixed with each other and with removals: the table stays sound.
They differ in when they turn an absent key away: `put` does so when there is no room, `claim` also
when no slot is empty. Only removals can bring this about, since without tombstones at least half
of the slots are empty.
-/

namespace SourceFilter

/-- What a table that keys are added to in two ways is asked for. -/
inductive Operation (V : Type) where
  /-- A request. -/
  | request (request : Request V)
  /-- Finds a key, or adds it in a slot that was never used. -/
  | claim (key : Nat) (init : V → V)

namespace Operation

variable {V : Type}

/-- The key that an operation may add, remove or change. -/
def key? : Operation V → Option Nat
  | request (.put key _) => some key
  | request (.remove key) => some key
  | request (.modify key _) => some key
  | request _ => none
  | claim key _ => some key

/-- Whether an operation takes its key away. -/
def removes : Operation V → Bool
  | request (.remove _) => true
  | _ => false

end Operation

namespace SlotTable

variable {capacity : Nat} {V : Type} {t : SlotTable capacity V} {key : Nat}

/-- What a slot table answers an operation. -/
def operate [Inhabited V] : Operation V → SlotTable capacity V → Answer V × SlotTable capacity V
  | .request request, t => t.serve request
  | .claim key init, t =>
    let (placement, t) := t.claim key init
    (.placed placement (t.get? key), t)

/-- The keys that are live after a key has another value. -/
theorem Revises.contains_iff {t' : SlotTable capacity V} {value : Option V}
    (h : t'.Revises t key value) (other : Nat) :
    t'.contains other ↔ if other = key then value.isSome else t.contains other := by
  rw [contains_eq_isSome, h.get?_eq, Function.update_apply, contains_eq_isSome]
  split
  next => exact Iff.rfl
  next => exact Iff.rfl

/-- Claiming an absent key changes nothing when there is no room or no slot is empty. Otherwise the
key is added, and starts from what lies in its slot. -/
theorem Sound.claim_of_get?_eq_none (h : t.Sound) (hv : t.get? key = none) (init : V → V) :
    (capacity ≤ t.size ∨ Crowded t.marks) ∧ t.claim key init = (.full, t) ∨
      ¬(capacity ≤ t.size ∨ Crowded t.marks) ∧
        ∃ value t', t.claim key init = (.created, t') ∧ t'.Revises t key (some (init value)) ∧
          t'.size = t.size + 1 := by
  by_cases hfull : capacity ≤ t.size
  · exact .inl ⟨.inl hfull, claim_of_full hv hfull init⟩
  · by_cases hcrowded : Crowded t.marks
    · exact .inl ⟨.inr hcrowded, claim_of_no_empty hv hcrowded init⟩
    · right
      refine ⟨not_or.2 ⟨hfull, hcrowded⟩, ?_⟩
      have hroom : t.size < capacity := Nat.not_le.1 hfull
      have hempty : ∃ s, t.marks.get s = .empty := by
        by_contra hnone
        exact hcrowded (not_exists.1 hnone)
      obtain ⟨s, -, hplace, hclaim⟩ := claim_of_empty hv hroom hempty init
      have hr := h.revises_occupy (find?_eq_none_of_get? hv) hplace hroom (init (t.values.get s))
      exact ⟨t.values.get s, _, hclaim, hr, rfl⟩

/-- Claiming a key changes at most the mark of the slot it takes. -/
theorem marks_claim (t : SlotTable capacity V) (key : Nat) (init : V → V) :
    (t.claim key init).2.marks = t.marks ∨ ∃ s, (t.marks.get s).Free false ∧
      (t.claim key init).2.marks = t.marks.set s (.live key) s.isLt := by
  rw [claim]
  split
  next => exact .inl rfl
  next => exact .inl rfl
  next s hs =>
    split
    next => exact .inl rfl
    next => exact .inr ⟨s, free_of_landing hs, rfl⟩

variable [Inhabited V]

/-- An operation does nothing, or gives its key another value and leaves all others alone. The key
loses its value only to a removal. -/
theorem Sound.operate (h : t.Sound) (operation : Operation V) :
    (t.operate operation).2 = t ∨
      ∃ key value, operation.key? = some key ∧ (t.operate operation).2.Revises t key value ∧
        (operation.removes = false → value.isSome) := by
  cases operation with
  | claim key init =>
    cases hv : t.get? key with
    | some v =>
      left
      rw [SlotTable.operate, claim_of_get?_eq_some hv]
    | none =>
      rcases h.claim_of_get?_eq_none hv init with ⟨-, hclaim⟩ | ⟨-, value, t', hclaim, hr, -⟩
      · left
        rw [SlotTable.operate, hclaim]
      · right
        rw [SlotTable.operate, hclaim]
        exact ⟨key, _, rfl, hr, fun _ => rfl⟩
  | request request =>
    cases request with
    | put key init =>
      cases hv : t.get? key with
      | some v =>
        right
        obtain ⟨t', hput, hr, -⟩ := h.put_of_get?_eq_some hv init
        rw [SlotTable.operate, serve, hput]
        exact ⟨key, _, rfl, hr, fun _ => rfl⟩
      | none =>
        rcases Nat.lt_or_ge t.size capacity with hroom | hfull
        · right
          obtain ⟨t', hput, hr, -⟩ := h.put_of_room hv hroom init
          rw [SlotTable.operate, serve, hput]
          exact ⟨key, _, rfl, hr, fun _ => rfl⟩
        · left
          rw [SlotTable.operate, serve, put_of_full hv hfull]
    | remove key =>
      cases hv : t.get? key with
      | some v =>
        right
        obtain ⟨t', hremove, hr, -⟩ := h.remove_of_get?_eq_some hv
        rw [SlotTable.operate, serve, hremove]
        refine ⟨key, none, rfl, hr, fun hkeeps => ?_⟩
        cases hkeeps
      | none =>
        left
        rw [SlotTable.operate, serve, remove_of_get?_eq_none hv]
    | modify key f =>
      cases hv : t.get? key with
      | some v => exact .inr ⟨key, _, rfl, h.revises_modify hv f, fun _ => rfl⟩
      | none => exact .inl (modify_of_get?_eq_none hv f)
    | get key => exact .inl rfl
    | read key => exact .inl rfl
    | contains key => exact .inl rfl
    | entries => exact .inl rfl
    | size => exact .inl rfl

/-- An operation keeps a table sound. -/
theorem Sound.operate_sound (h : t.Sound) (operation : Operation V) :
    (t.operate operation).2.Sound := by
  rcases h.operate operation with hsame | ⟨key, value, -, hr, -⟩
  · rw [hsame]
    exact h
  · exact hr.sound

/-- What is no removal changes at most one mark, that of a free slot to that of a key. -/
theorem marks_operate (t : SlotTable capacity V) {operation : Operation V}
    (hkeeps : operation.removes = false) :
    (t.operate operation).2.marks = t.marks ∨ ∃ s key, (t.marks.get s).Free true ∧
      (t.operate operation).2.marks = t.marks.set s (.live key) s.isLt := by
  cases operation with
  | claim key init =>
    rcases marks_claim t key init with h | ⟨s, hfree, h⟩
    · exact .inl h
    · exact .inr ⟨s, key, hfree.imp_right fun hreuse => ⟨rfl, hreuse.2⟩, h⟩
  | request request =>
    cases request with
    | put key init =>
      rcases marks_put t key init with h | ⟨s, hfree, h⟩
      · exact .inl h
      · exact .inr ⟨s, key, hfree, h⟩
    | remove key => cases hkeeps
    | modify key f =>
      left
      rw [SlotTable.operate, serve, modify]
      dsimp only
      split
      next => rfl
      next => rfl
    | get key => exact .inl rfl
    | read key => exact .inl rfl
    | contains key => exact .inl rfl
    | entries => exact .inl rfl
    | size => exact .inl rfl

/-- A table stays sound in every run. -/
theorem sound_operations (h : t.Sound) (operations : List (Operation V)) :
    (runAll operate operations t).2.Sound :=
  runAll_invariant (fun operation _ h => h.operate_sound operation) h operations

end SlotTable
end SourceFilter
