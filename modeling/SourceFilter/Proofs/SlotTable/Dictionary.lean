import SourceFilter.SlotTable.Loan
import SourceFilter.Proofs.Run
import SourceFilter.Proofs.SlotTable.Filing

/-!
# Slot tables as bounded finite maps

A table with a single writer answers every request as a finite map with room for so many keys would.
Tombstones, slots that are used again and searches that wrap around cannot be told from the answers.
One request keeps the agreement, so a whole run does.
-/

namespace SourceFilter

/-- What a table is asked for when no two requests overlap. -/
inductive Request (V : Type) where
  /-- Adds a key, or initialises the value of a live key in place. -/
  | put (key : Nat) (init : V → V)
  /-- Removes a key. -/
  | remove (key : Nat)
  /-- Asks for the value of a key. -/
  | get (key : Nat)
  /-- Asks for the value of a key through a loan that is settled at once. -/
  | read (key : Nat)
  /-- Asks whether a key is live. -/
  | contains (key : Nat)
  /-- Changes the value of a live key in place. -/
  | modify (key : Nat) (f : V → V)
  /-- Asks for all live keys with their values. -/
  | entries
  /-- Asks for the number of live keys. -/
  | size

/-- What a request is answered. -/
inductive Answer (V : Type) where
  /-- What became of a key that was to be added, and its value. -/
  | placed (placement : Placement) (value : Option V)
  /-- The value of a key. -/
  | value (value : Option V)
  /-- Whether a key is, or was, live. -/
  | live (present : Bool)
  /-- Nothing. -/
  | silence
  /-- The live keys with their values, in no particular order. -/
  | entries (entries : Multiset (Nat × V))
  /-- The number of live keys. -/
  | size (size : Nat)

/-- What a slot table answers a request. -/
def SlotTable.serve {capacity : Nat} {V : Type} [Inhabited V] :
    Request V → SlotTable capacity V → Answer V × SlotTable capacity V
  | .put key init, t =>
    let (placement, t) := t.put key init
    (.placed placement (t.get? key), t)
  | .remove key, t =>
    let (present, t) := t.remove key
    (.live present, t)
  | .get key, t => (.value (t.get? key), t)
  | .read key, t => (.value ((t.lend? key).bind t.settle?), t)
  | .contains key, t => (.live (t.contains key), t)
  | .modify key f, t => (.silence, t.modify key f)
  | .entries, t => (.entries t.entries, t)
  | .size, t => (.size t.size, t)

/-- A finite map from numeric keys. -/
abbrev Dictionary (V : Type) := Finmap fun _ : Nat => V

namespace Dictionary

variable {V : Type}

/-- What a finite map with room for so many keys answers a request. A live key is initialised from
its value, an absent one from the fresh value if there is room. -/
def serve [Inhabited V] (capacity : Nat) :
    Request V → Dictionary V → Answer V × Dictionary V
  | .put key init, m =>
    match m.lookup key with
    | some v => (.placed .found (some (init v)), m.insert key (init v))
    | none =>
      if m.keys.card < capacity then
        (.placed .created (some (init default)), m.insert key (init default))
      else (.placed .full none, m)
  | .remove key, m => (.live (decide (key ∈ m)), m.erase key)
  | .get key, m => (.value (m.lookup key), m)
  | .read key, m => (.value (m.lookup key), m)
  | .contains key, m => (.live (decide (key ∈ m)), m)
  | .modify key f, m =>
    match m.lookup key with
    | some v => (.silence, m.insert key (f v))
    | none => (.silence, m)
  | .entries, m => (.entries (m.entries.map fun entry => (entry.1, entry.2)), m)
  | .size, m => (.size m.keys.card, m)

end Dictionary

namespace SlotTable

variable {capacity : Nat} {V : Type} {t : SlotTable capacity V} {m : Dictionary V}

/-- The table holds what the finite map holds. -/
abbrev Holds (t : SlotTable capacity V) (m : Dictionary V) : Prop :=
  t.Files id fun key => m.lookup key

/-- A loan that is settled at once gives the value of its key. -/
theorem bind_settle? (t : SlotTable capacity V) (key : Nat) :
    (t.lend? key).bind t.settle? = t.get? key := by
  cases h : t.lend? key with
  | none => exact (Option.map_eq_none_iff.2 (Option.map_eq_none_iff.1 h)).symm
  | some loan => exact settle?_of_lend? h

namespace Holds

/-- A value is found as in the map. -/
theorem get?_eq (h : t.Holds m) (key : Nat) : t.get? key = m.lookup key := h.get?_number key

/-- A key is live when the map has it. -/
theorem contains_eq (h : t.Holds m) (key : Nat) : t.contains key = decide (key ∈ m) := by
  rw [contains_eq_isSome, h.get?_eq, Bool.eq_iff_iff, decide_eq_true_iff]
  exact Finmap.lookup_isSome

/-- The table counts the keys of the map. -/
theorem size_eq (h : t.Holds m) : t.size = m.keys.card :=
  Files.size_eq_card h Function.injective_id fun _ =>
    Finmap.mem_keys.trans Finmap.lookup_isSome.symm

/-- The entries are those of the map. -/
theorem entries_eq (h : t.Holds m) :
    (t.entries : Multiset (Nat × V)) = m.entries.map fun entry => (entry.1, entry.2) := by
  have hleft : (t.entries : Multiset (Nat × V)).Nodup := h.sound.nodup_keys.of_map Prod.fst
  have hinj : Function.Injective fun entry : (_ : Nat) × V => (entry.1, entry.2) := by
    rintro ⟨k, v⟩ ⟨k', v'⟩ he
    cases he
    rfl
  have hright := m.nodupKeys.nodup.map hinj
  refine (hleft.ext hright).2 fun ⟨key, v⟩ => ?_
  rw [Multiset.mem_coe, h.sound.mem_entries_iff, h.get?_eq, Multiset.mem_map]
  constructor
  · intro hv
    exact ⟨⟨key, v⟩, Finmap.lookup_eq_some_iff.1 hv, rfl⟩
  · rintro ⟨⟨k, v'⟩, hmem, he⟩
    cases he
    exact Finmap.lookup_eq_some_iff.2 hmem

/-- A table that differs in the value of one key holds the map with this value. -/
theorem insert (h : t.Holds m) {t' : SlotTable capacity V} {key : Nat} {v : V}
    (hr : t'.Revises t key (some v)) : t'.Holds (m.insert key v) := by
  rw [Holds, Finite.lookup_insert_eq_update]
  exact Files.revise h Function.injective_id hr

/-- A table that lacks one key more holds the map without it. -/
theorem erase (h : t.Holds m) {t' : SlotTable capacity V} {key : Nat}
    (hr : t'.Revises t key none) : t'.Holds (m.erase key) := by
  rw [Holds, Finite.lookup_erase_eq_update]
  exact Files.revise h Function.injective_id hr

variable [Inhabited V]

/-- The empty table holds the empty map. -/
theorem empty : (SlotTable.empty : SlotTable capacity V).Holds ∅ := Files.empty id

/-- Adding a key is answered alike. -/
theorem serve_put (h : t.Holds m) (key : Nat) (init : V → V) :
    (t.serve (.put key init)).1 = (m.serve capacity (.put key init)).1 ∧
      (t.serve (.put key init)).2.Holds (m.serve capacity (.put key init)).2 := by
  have hkey := h.get?_eq key
  rw [SlotTable.serve, Dictionary.serve]
  cases hv : m.lookup key with
  | some v =>
    obtain ⟨t', ht', hr, -⟩ := h.sound.put_of_get?_eq_some (hkey.trans hv) init
    simp only [ht', hr.get?_eq, Function.update_self]
    exact ⟨trivial, h.insert hr⟩
  | none =>
    rw [hv] at hkey
    rw [← h.size_eq]
    rcases Nat.lt_or_ge t.size capacity with hroom | hfull
    · obtain ⟨t', ht', hr, -⟩ := h.sound.put_of_room hkey hroom init
      simp only [ht', hr.get?_eq, Function.update_self, if_pos hroom]
      exact ⟨trivial, h.insert hr⟩
    · simp only [put_of_full hkey hfull init, hkey, if_neg (Nat.not_lt.2 hfull)]
      exact ⟨trivial, h⟩

/-- Removing a key is answered alike. -/
theorem serve_remove (h : t.Holds m) (key : Nat) :
    (t.serve (.remove key)).1 = (m.serve capacity (.remove key)).1 ∧
      (t.serve (.remove key)).2.Holds (m.serve capacity (.remove key)).2 := by
  have hkey := h.get?_eq key
  rw [SlotTable.serve, Dictionary.serve]
  cases hv : m.lookup key with
  | some v =>
    obtain ⟨t', ht', hr, -⟩ := h.sound.remove_of_get?_eq_some (hkey.trans hv)
    rw [ht', decide_eq_true (Finmap.mem_of_lookup_eq_some hv)]
    exact ⟨rfl, h.erase hr⟩
  | none =>
    have hmem : key ∉ m := Finmap.lookup_eq_none.1 hv
    have herase : m.erase key = m := by
      apply Finmap.ext_lookup
      intro k
      by_cases hk : k = key
      · rw [hk, Finmap.lookup_erase, hv]
      · exact Finmap.lookup_erase_ne hk
    rw [remove_of_get?_eq_none (hkey.trans hv), decide_eq_false hmem, herase]
    exact ⟨rfl, h⟩

/-- Changing a value is answered alike. -/
theorem serve_modify (h : t.Holds m) (key : Nat) (f : V → V) :
    (t.serve (.modify key f)).1 = (m.serve capacity (.modify key f)).1 ∧
      (t.serve (.modify key f)).2.Holds (m.serve capacity (.modify key f)).2 := by
  have hkey := h.get?_eq key
  rw [SlotTable.serve, Dictionary.serve]
  cases hv : m.lookup key with
  | some v => exact ⟨rfl, h.insert (h.sound.revises_modify (hkey.trans hv) f)⟩
  | none =>
    rw [modify_of_get?_eq_none (hkey.trans hv)]
    exact ⟨rfl, h⟩

/-- Every request is answered alike and keeps the agreement. -/
theorem serve (h : t.Holds m) (request : Request V) :
    (t.serve request).1 = (m.serve capacity request).1 ∧
      (t.serve request).2.Holds (m.serve capacity request).2 := by
  cases request with
  | put key init => exact h.serve_put key init
  | remove key => exact h.serve_remove key
  | get key => exact ⟨congrArg Answer.value (h.get?_eq key), h⟩
  | read key => exact ⟨congrArg Answer.value ((bind_settle? t key).trans (h.get?_eq key)), h⟩
  | contains key => exact ⟨congrArg Answer.live (h.contains_eq key), h⟩
  | modify key f => exact h.serve_modify key f
  | entries => exact ⟨congrArg Answer.entries h.entries_eq, h⟩
  | size => exact ⟨congrArg Answer.size h.size_eq, h⟩

/-- A key is turned away, and nothing changes, exactly when it is absent and there is no room. -/
theorem put_eq_full_iff (h : t.Holds m) (key : Nat) (init : V → V) :
    ((t.put key init).1 = .full ↔ key ∉ m ∧ m.keys.card = capacity) ∧
      (t.put key init = (.full, t) ↔ key ∉ m ∧ m.keys.card = capacity) := by
  have hkey := h.get?_eq key
  have hbound := h.sound.bounded
  rw [← h.size_eq, ← Finmap.lookup_eq_none]
  cases hv : m.lookup key with
  | some v =>
    obtain ⟨t', ht', -⟩ := h.sound.put_of_get?_eq_some (hkey.trans hv) init
    simp [ht']
  | none =>
    rw [hv] at hkey
    rcases Nat.lt_or_ge t.size capacity with hroom | hfull
    · obtain ⟨t', ht', -⟩ := h.sound.put_of_room hkey hroom init
      simp [ht', Nat.ne_of_lt hroom]
    · simp [put_of_full hkey hfull init, Nat.le_antisymm hbound hfull]

end Holds

/-- Whatever a new table is asked for, it answers as the finite map with room for so many keys.
After any run it holds what the map holds, counts its keys, turns a key away only when the key is
absent and the map is full, and then changes nothing; and a search finds a key exactly in the slot
where it lies. -/
theorem serves_as_dictionary [Inhabited V] (capacity : Nat) (requests : List (Request V)) :
    let table := runAll serve requests (SlotTable.empty : SlotTable capacity V)
    let map := runAll (Dictionary.serve capacity) requests ∅
    table.1 = map.1 ∧
      (∀ key, table.2.get? key = map.2.lookup key) ∧
      (∀ key, table.2.contains key = decide (key ∈ map.2)) ∧
      (table.2.entries : Multiset (Nat × V)) = map.2.entries.map (fun entry => (entry.1, entry.2)) ∧
      table.2.size = map.2.keys.card ∧ map.2.keys.card ≤ capacity ∧
      (∀ key init,
        ((table.2.put key init).1 = .full ↔ key ∉ map.2 ∧ map.2.keys.card = capacity) ∧
        (table.2.put key init = (.full, table.2) ↔ key ∉ map.2 ∧ map.2.keys.card = capacity)) ∧
      ∀ key s, table.2.find? key = some s ↔ table.2.marks.get s = .live key := by
  obtain ⟨hanswers, h⟩ := runAll_simulation
    (fun request (t : SlotTable capacity V) m h => Holds.serve h request) Holds.empty requests
  exact ⟨hanswers, h.get?_eq, h.contains_eq, h.entries_eq, h.size_eq,
    h.size_eq ▸ h.sound.bounded, h.put_eq_full_iff, fun _ _ => h.sound.find?_eq_some_iff⟩

end SlotTable
end SourceFilter
