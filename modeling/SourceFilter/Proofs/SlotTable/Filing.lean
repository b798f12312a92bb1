import SourceFilter.Proofs.SlotTable.Removal
import Mathlib.Data.Finmap
import Mathlib.Data.Fintype.EquivFin

/-!
# What a slot table holds

The entries of a sound table are its live keys, each once and with its value, so there are as many
of them as the table counts. A table files a map when the keys of the map are numbered without
repetition and the table holds the value of each key under its number, and nothing else.
-/

namespace SourceFilter

namespace Finite

variable {K V : Type} [DecidableEq K]

/-- Inserting changes what is found under the key alone. -/
theorem lookup_insert_eq_update (m : Finmap fun _ : K => V) (k : K) (v : V) :
    (fun k' => (m.insert k v).lookup k') = Function.update (fun k' => m.lookup k') k (some v) := by
  funext k'
  rw [Function.update_apply]
  split
  next h =>
    rw [h]
    exact Finmap.lookup_insert m
  next h => exact Finmap.lookup_insert_of_ne m h

/-- Erasing changes what is found under the key alone. -/
theorem lookup_erase_eq_update (m : Finmap fun _ : K => V) (k : K) :
    (fun k' => (m.erase k).lookup k') = Function.update (fun k' => m.lookup k') k none := by
  funext k'
  rw [Function.update_apply]
  split
  next h =>
    rw [h]
    exact Finmap.lookup_erase k m
  next h => exact Finmap.lookup_erase_ne h

/-- Inserting the value that a key has changes nothing. -/
theorem insert_eq_self {m : Finmap fun _ : K => V} {k : K} {v : V} (h : m.lookup k = some v) :
    m.insert k v = m := by
  apply Finmap.ext_lookup
  intro k'
  by_cases hk : k' = k
  · rw [hk, Finmap.lookup_insert, h]
  · rw [Finmap.lookup_insert_of_ne m hk]

/-- Inserting changes what is made of the value of the key alone. -/
theorem map_lookup_insert {W : Type} (m : Finmap fun _ : K => V) (k : K) (v : V) (f : V → W) :
    (fun k' => ((m.insert k v).lookup k').map f) =
      Function.update (fun k' => (m.lookup k').map f) k (some (f v)) := by
  funext k'
  have hk' := congrFun (lookup_insert_eq_update m k v) k'
  simp only [Function.update_apply] at hk' ⊢
  rw [hk', apply_ite (Option.map f), Option.map_some]

/-- Erasing takes away what is made of the value of the key alone. -/
theorem map_lookup_erase {W : Type} (m : Finmap fun _ : K => V) (k : K) (f : V → W) :
    (fun k' => ((m.erase k).lookup k').map f) =
      Function.update (fun k' => (m.lookup k').map f) k none := by
  funext k'
  have hk' := congrFun (lookup_erase_eq_update m k) k'
  simp only [Function.update_apply] at hk' ⊢
  rw [hk', apply_ite (Option.map f), Option.map_none]

/-- Making something of the values keeps the keys. -/
theorem mem_keys_iff_isSome_map {W : Type} {m : Finmap fun _ : K => V} {k : K} (f : V → W) :
    k ∈ m.keys ↔ ((m.lookup k).map f).isSome := by
  rw [Option.isSome_map, Finmap.lookup_isSome, Finmap.mem_keys]

/-- The map that has the members of a set. -/
def presence (s : Finset K) (k : K) : Option Unit := if k ∈ s then some () else none

/-- The members of the set are the keys of the map. -/
theorem isSome_presence {s : Finset K} {k : K} : (presence s k).isSome ↔ k ∈ s := by
  rw [presence]
  split <;> simp [*]

/-- One member more is one key more. -/
theorem presence_insert (s : Finset K) (k : K) :
    presence (insert k s) = Function.update (presence s) k (some ()) := by
  funext k'
  by_cases hk : k' = k <;> simp [presence, hk]

/-- One member less is one key less. -/
theorem presence_erase (s : Finset K) (k : K) :
    presence (s.erase k) = Function.update (presence s) k none := by
  funext k'
  by_cases hk : k' = k <;> simp [presence, hk]

/-- Items that are decoded from a list, and have the labels of what they were decoded from, are as
different as these. -/
theorem nodup_filterMap {α β L : Type} {xs : List α} {decode : α → Option β} {key : α → L}
    {label : β → L} (h : (xs.map key).Nodup)
    (hdecode : ∀ x ∈ xs, ∃ y, decode x = some y ∧ label y = key x) :
    (xs.filterMap decode).Nodup := by
  have hlabels : (xs.filterMap decode).map label = xs.map key := by
    rw [List.map_filterMap, ← List.filterMap_eq_map]
    refine List.filterMap_congr fun x hx => ?_
    obtain ⟨y, hy, hlabel⟩ := hdecode x hx
    simp [hy, hlabel]
  exact List.Nodup.of_map label (hlabels ▸ h)

end Finite

namespace SlotTable

open Slot

variable {capacity : Nat} {V : Type} {t : SlotTable capacity V} {key : Nat}

/-- A vector lists what it holds at its places. -/
theorem toList_eq_map_get {α : Type} {n : Nat} (xs : Vector α n) :
    xs.toList = (List.finRange n).map xs.get := by
  apply List.ext_getElem
  · rw [Vector.length_toList, List.length_map, List.length_finRange]
  · intro i h1 h2
    rw [List.getElem_map, List.getElem_finRange, Vector.getElem_toList]
    rfl

/-- The entries are read off the slots, one after the other. -/
theorem entries_eq (t : SlotTable capacity V) :
    t.entries = (List.finRange (slotCount capacity)).filterMap fun s =>
      (t.marks.get s).key?.map fun key => (key, t.values.get s) := by
  rw [entries, toList_eq_map_get, toList_eq_map_get, List.zip_map', List.filterMap_map]
  refine congrArg (List.filterMap · _) (funext fun s => ?_)
  simp only [Function.comp_apply]
  cases t.marks.get s <;> rfl

/-- An entry is a key with the value in its slot. -/
theorem mem_entries {v : V} :
    (key, v) ∈ t.entries ↔ ∃ s, t.marks.get s = .live key ∧ t.values.get s = v := by
  simp only [entries_eq, List.mem_filterMap, List.mem_finRange, true_and, Option.map_eq_some_iff,
    Mark.key?_eq_some_iff, Prod.mk.injEq]
  constructor
  · rintro ⟨s, k, hk, rfl, hv⟩
    exact ⟨s, hk, hv⟩
  · rintro ⟨s, hk, hv⟩
    exact ⟨s, key, hk, rfl, hv⟩

/-- There is one entry for each live slot. -/
theorem length_entries (t : SlotTable capacity V) :
    t.entries.length = (liveSlots t.marks).card := by
  have hslots : liveSlots t.marks = ((List.finRange (slotCount capacity)).filter
      fun s => (t.marks.get s).key?.isSome).toFinset := by
    ext s
    simp [liveSlots]
  have hnodup : ((List.finRange (slotCount capacity)).filter
      fun s => (t.marks.get s).key?.isSome).Nodup := (List.nodup_finRange _).filter _
  rw [hslots, List.toFinset_card_of_nodup hnodup, entries_eq, List.length_filterMap_eq_countP,
    List.countP_eq_length_filter]
  simp only [Option.isSome_map]

/-- The keys that have an entry. -/
def liveKeys (t : SlotTable capacity V) : Finset Nat := (t.entries.map Prod.fst).toFinset

namespace Sound

/-- The entries are the live keys with their values. -/
theorem mem_entries_iff (h : t.Sound) {v : V} : (key, v) ∈ t.entries ↔ t.get? key = some v := by
  rw [mem_entries, h.get?_eq_some_iff]

/-- No key has two entries. -/
theorem nodup_keys (h : t.Sound) : (t.entries.map Prod.fst).Nodup := by
  rw [entries_eq, List.map_filterMap]
  refine (List.nodup_finRange _).filterMap fun i j k hi hj => ?_
  simp only [Option.map_map, Option.mem_def, Option.map_eq_some_iff, Mark.key?_eq_some_iff,
    Function.comp_apply, exists_eq_right] at hi hj
  exact h.single hi hj

/-- The size of a table is the number of its entries. -/
theorem size_eq_length (h : t.Sound) : t.size = t.entries.length := by
  rw [length_entries, h.counted]

/-- A key is live when it has an entry. -/
theorem mem_liveKeys (h : t.Sound) : key ∈ t.liveKeys ↔ t.contains key := by
  rw [liveKeys, contains_eq_isSome, Option.isSome_iff_exists]
  simp only [List.mem_toFinset, List.mem_map, Prod.exists, exists_and_right, exists_eq_right,
    h.mem_entries_iff]

/-- The size of a table is the number of its live keys. -/
theorem card_liveKeys (h : t.Sound) : t.liveKeys.card = t.size := by
  rw [liveKeys, List.toFinset_card_of_nodup h.nodup_keys, List.length_map, h.size_eq_length]

/-- The size of a table is the number of its live keys, however these are listed. -/
theorem size_eq_card (h : t.Sound) {keys : Finset Nat} (hk : ∀ key, key ∈ keys ↔ t.contains key) :
    t.size = keys.card := by
  have hkeys : keys = t.liveKeys := by
    ext key
    rw [hk, h.mem_liveKeys]
  rw [hkeys, h.card_liveKeys]

/-- Entries that are decoded into items, each with its key as label, are the items of the live keys,
each once. -/
theorem nodup_filterMap_entries (h : t.Sound) {α : Type} {decode : Nat × V → Option α}
    (label : α → Nat)
    (hdecode : ∀ key v, t.get? key = some v → ∃ x, decode (key, v) = some x ∧ label x = key) :
    (t.entries.filterMap decode).Nodup :=
  Finite.nodup_filterMap h.nodup_keys fun ⟨key, v⟩ hmem =>
    hdecode key v (h.mem_entries_iff.1 hmem)

end Sound

/-- The table holds what a map says, each key under its number. -/
structure Files {K : Type} (t : SlotTable capacity V) (number : K → Nat) (content : K → Option V) :
    Prop where
  /-- The table is sound. -/
  sound : t.Sound
  /-- The value of a key is filed under its number. -/
  get?_number : ∀ k, t.get? (number k) = content k
  /-- Nothing else is filed. -/
  numbered : ∀ key, t.contains key → ∃ k, number k = key

namespace Files

variable {K : Type} {number : K → Nat} {content : K → Option V}

/-- A key is live when it is the number of a key of the map. -/
theorem contains_iff (h : t.Files number content) :
    t.contains key ↔ ∃ k, number k = key ∧ (content k).isSome := by
  constructor
  · intro hkey
    obtain ⟨k, rfl⟩ := h.numbered key hkey
    rw [contains_eq_isSome, h.get?_number] at hkey
    exact ⟨k, rfl, hkey⟩
  · rintro ⟨k, rfl, hk⟩
    rwa [contains_eq_isSome, h.get?_number]

/-- The size of the table is the number of keys of the map. -/
theorem size_eq_card (h : t.Files number content) (hn : Function.Injective number)
    {keys : Finset K} (hk : ∀ k, k ∈ keys ↔ (content k).isSome) : t.size = keys.card := by
  rw [← Finset.card_map ⟨number, hn⟩]
  apply h.sound.size_eq_card
  intro key
  simp only [Finset.mem_map, Function.Embedding.coeFn_mk, h.contains_iff, hk]
  exact exists_congr fun k => and_comm

/-- The empty table files the map without keys. -/
theorem empty [Inhabited V] (number : K → Nat) :
    (SlotTable.empty : SlotTable capacity V).Files number fun _ => none := by
  have hnone (key : Nat) : (SlotTable.empty : SlotTable capacity V).get? key = none := by
    rw [Option.eq_none_iff_forall_ne_some]
    intro v hv
    obtain ⟨s, hs, -⟩ := sound_empty.get?_eq_some_iff.1 hv
    have hget : (SlotTable.empty : SlotTable capacity V).marks.get s = .empty :=
      Vector.getElem_replicate s.isLt
    cases hget.symm.trans hs
  refine ⟨sound_empty, fun k => hnone _, fun key hkey => ?_⟩
  rw [contains_eq_isSome, hnone] at hkey
  cases hkey

/-- A table that differs in one key files the map that differs in this key. -/
theorem revise [DecidableEq K] (h : t.Files number content) (hn : Function.Injective number)
    {t' : SlotTable capacity V} {k : K} {value : Option V}
    (hr : t'.Revises t (number k) value) :
    t'.Files number (Function.update content k value) := by
  refine ⟨hr.sound, fun k' => ?_, fun key hkey => ?_⟩
  · rw [hr.get?_eq, Function.update_apply, Function.update_apply, h.get?_number]
    exact if_congr hn.eq_iff rfl rfl
  · rw [contains_eq_isSome, hr.get?_eq, Function.update_apply] at hkey
    split at hkey
    next hk => exact ⟨k, hk.symm⟩
    next => exact h.numbered key (by rwa [contains_eq_isSome])

/-- The entries are the numbered keys of the map with their values, in some order. -/
theorem perm_entries (h : t.Files number content) (hn : Function.Injective number) {keys : List K}
    (hkeys : keys.Nodup) {value : K → V}
    (hcontent : ∀ k v, content k = some v ↔ k ∈ keys ∧ value k = v) :
    t.entries.Perm (keys.map fun k => (number k, value k)) := by
  have hnodup : (keys.map fun k => (number k, value k)).Nodup :=
    hkeys.map fun k k' hk => hn (Prod.ext_iff.1 hk).1
  rw [List.perm_ext_iff_of_nodup h.sound.nodup_keys.of_map hnodup]
  rintro ⟨key, v⟩
  rw [h.sound.mem_entries_iff, List.mem_map]
  constructor
  · intro hget
    have hkey : t.contains key := by rw [contains_eq_isSome, hget, Option.isSome_some]
    obtain ⟨k, rfl⟩ := h.numbered key hkey
    rw [h.get?_number, hcontent] at hget
    obtain ⟨hk, hvalue⟩ := hget
    exact ⟨k, hk, Prod.ext rfl hvalue⟩
  · rintro ⟨k, hk, hentry⟩
    obtain ⟨rfl, hvalue⟩ := Prod.ext_iff.1 hentry
    rw [h.get?_number, hcontent]
    exact ⟨hk, hvalue⟩

end Files

end SlotTable
end SourceFilter
