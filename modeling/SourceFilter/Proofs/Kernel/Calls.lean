import SourceFilter.Kernel.Calls
import SourceFilter.Proofs.Kernel.Map

/-!
# Calls to the kernel that are not set to fail

When no call is set to fail, a call about a map is answered by the map and changes no other map, and
the entries of a map are listed once each, in whatever order the kernel lists its keys. A map of the
program that holds what is said of some keys takes one more as long as there is room, and gives up a
key whether it was there or not.
-/

namespace SourceFilter

namespace Kernel

variable {k : Kernel} {name other : MapName} {m : KernelMap}

/-- Replacing a map changes what is found under its name alone. -/
theorem map?_setMap (k : Kernel) (name other : MapName) (m' : KernelMap) :
    (k.setMap name m').map? other =
      if other = name then (k.map? name).map fun _ => m' else k.map? other := by
  simp only [map?, setMap]
  induction k.maps with
  | nil =>
    split
    next => rfl
    next => rfl
  | cons entry maps ih =>
    obtain ⟨first, m₁⟩ := entry
    rw [List.map_cons, List.lookup_cons, List.lookup_cons, List.lookup_cons, ih]
    by_cases hfirst : first = name
    · by_cases hother : other = name
      · simp [hfirst, hother]
      · simp [hfirst, beq_false_of_ne hother, hother]
    · by_cases hother : other = name
      · simp [hfirst, hother, beq_false_of_ne (Ne.symm hfirst)]
      · simp [hfirst, hother]

/-- The map that replaces another one is found. -/
theorem map?_setMap_self (h : k.map? name = some m) (m' : KernelMap) :
    (k.setMap name m').map? name = some m' := by
  rw [map?_setMap, if_pos rfl, h, Option.map_some]

/-- Replacing a map does not change the others. -/
theorem map?_setMap_of_ne (h : other ≠ name) (m' : KernelMap) :
    (k.setMap name m').map? other = k.map? other := by
  rw [map?_setMap, if_neg h]

/-- At most the map of a name differs. -/
structure ChangesOnly (name : MapName) (k k' : Kernel) : Prop where
  /-- The same calls are set to fail. -/
  faults : k'.faults = k.faults
  /-- The other maps are the same. -/
  others : ∀ other, other ≠ name → k'.map? other = k.map? other

namespace ChangesOnly

/-- Nothing differs. -/
theorem refl (name : MapName) (k : Kernel) : ChangesOnly name k k := ⟨rfl, fun _ _ => rfl⟩

/-- One map was replaced. -/
theorem setMap (name : MapName) (k : Kernel) (m' : KernelMap) :
    ChangesOnly name k (k.setMap name m') :=
  ⟨rfl, fun _ hne => map?_setMap_of_ne hne m'⟩

end ChangesOnly

/-- When no call is set to fail, a call about a map is answered by the map. -/
theorem changeMap_eq (hfaults : k.faults = []) (h : k.map? name = some m) (call : KernelCall)
    (change : KernelMap → Except Errno KernelMap) :
    k.changeMap call name change =
      match change m with
      | .error errno => (.error (.callFailed call errno), k)
      | .ok m' => (.ok (), k.setMap name m') := by
  have hnone : k.fault? call name.text = none := by
    rw [fault?, hfaults]
    rfl
  cases hchange : change m with
  | error errno => simp only [changeMap, hnone, h, hchange]
  | ok m' => simp only [changeMap, hnone, h, hchange]

/-- When no call is set to fail, the keys of a map are listed, each once. -/
theorem keys_eq (hfaults : k.faults = []) (h : k.map? name = some m) :
    k.keys name = .ok (k.listing.arrange m.keys) := by
  have hnone : k.fault? .nextKey name.text = none := by
    rw [fault?, hfaults]
    rfl
  rw [Kernel.keys, hnone, h]

/-- When no call is set to fail, a key has the value that its map answers. -/
theorem lookup_eq (hfaults : k.faults = []) (h : k.map? name = some m) {key value : Bytes}
    (hvalue : m.lookup? key = some value) : k.lookup name key = .ok value := by
  have hnone : k.fault? .lookup name.text = none := by
    rw [fault?, hfaults]
    rfl
  simp only [lookup, hnone, h, hvalue]

/-- The entries under keys that are there. -/
theorem entriesAt_eq (hfaults : k.faults = []) (h : k.map? name = some m)
    {value : Bytes → Bytes} {keys : List Bytes}
    (hkeys : ∀ key ∈ keys, m.lookup? key = some (value key)) :
    k.entriesAt name keys = .ok (keys.map fun key => (key, value key)) := by
  induction keys with
  | nil => rfl
  | cons key keys ih =>
    obtain ⟨hkey, hrest⟩ := List.forall_mem_cons.1 hkeys
    simp only [entriesAt, lookup_eq hfaults h hkey, ih hrest]
    rfl

/-- When no call is set to fail, a map that is no array lists each of its entries once. -/
theorem exists_entries (hfaults : k.faults = []) (h : k.map? name = some m)
    (hkind : m.shape.kind ≠ .array) :
    ∃ entries, k.entries name = .ok entries ∧ (entries.map Prod.fst).Nodup ∧
      ∀ key value, (key, value) ∈ entries ↔ m.filed[key]? = some value := by
  have hperm : (k.listing.arrange m.keys).Perm m.filed.keys := by
    rw [KernelMap.keys_of_kind_ne hkind]
    exact k.listing.perm _
  have hmem (key : Bytes) : key ∈ k.listing.arrange m.keys ↔ m.filed[key]?.isSome := by
    rw [hperm.mem_iff, Std.TreeMap.mem_keys, Std.TreeMap.mem_iff_isSome_getElem?]
  have hvalues (key : Bytes) (hkey : key ∈ k.listing.arrange m.keys) :
      m.lookup? key = some ((m.filed[key]?).getD []) := by
    obtain ⟨value, hvalue⟩ := Option.isSome_iff_exists.1 ((hmem key).1 hkey)
    rw [KernelMap.lookup?_of_kind_ne hkind, hvalue, Option.getD_some]
  refine ⟨(k.listing.arrange m.keys).map fun key => (key, (m.filed[key]?).getD []), ?_, ?_,
    fun key value => ?_⟩
  · rw [Kernel.entries, keys_eq hfaults h]
    exact entriesAt_eq hfaults h hvalues
  · rw [List.map_map, Function.comp_def, List.map_id']
    exact hperm.nodup_iff.2 Std.TreeMap.nodup_keys
  · rw [List.mem_map]
    constructor
    · rintro ⟨key', hkey, he⟩
      obtain ⟨rfl, rfl⟩ := Prod.ext_iff.1 he
      have hlookup := hvalues key' hkey
      rwa [KernelMap.lookup?_of_kind_ne hkind] at hlookup
    · intro hvalue
      refine ⟨key, (hmem key).2 (Option.isSome_iff_exists.2 ⟨value, hvalue⟩), ?_⟩
      rw [hvalue, Option.getD_some]

section Files

variable {K : Type} {capacity : Nat} {bytes : K → Bytes} {content : K → Option Bytes}

/-- A map of the program, as it was declared with room for so many entries, holds what is said of
some keys. -/
def Files (k : Kernel) (capacity : Nat) (name : MapName) (bytes : K → Bytes)
    (content : K → Option Bytes) : Prop :=
  ∃ m, k.map? name = some m ∧ m.shape = name.shape capacity ∧ m.Files bytes content

namespace Files

/-- A change of one map does not change what the others hold. -/
theorem of_changesOnly (h : k.Files capacity other bytes content) {k' : Kernel}
    (hk' : ChangesOnly name k k') (hne : other ≠ name) :
    k'.Files capacity other bytes content := by
  obtain ⟨m, hm, hshape, hfiles⟩ := h
  exact ⟨m, (hk'.others other hne).trans hm, hshape, hfiles⟩

variable {x : K} {keys : Finset K}

/-- Without room, one more key is refused and nothing changes. -/
theorem update_of_full (h : k.Files capacity name bytes content) (hfaults : k.faults = [])
    (hkind : (name.shape capacity).kind ≠ .array) (hbytes : Function.Injective bytes)
    (hkeys : ∀ y, y ∈ keys ↔ (content y).isSome) (hx : x ∉ keys)
    (hfull : (name.shape capacity).maxEntries ≤ keys.card) (value : Bytes) :
    ∃ e, k.update name (bytes x) value = (.error e, k) := by
  obtain ⟨m, hm, hshape, hfiles⟩ := h
  rw [← hshape] at hkind hfull
  have hnone : m.filed[bytes x]? = none := by
    rw [hfiles.getElem?_bytes, ← Option.not_isSome_iff_eq_none, ← hkeys]
    exact hx
  have hfull' : m.shape.maxEntries ≤ m.filed.size := by
    rw [hfiles.size_eq_card hbytes hkeys]
    exact hfull
  obtain ⟨errno, hupdate⟩ := KernelMap.update_of_full hkind hnone hfull' value
  exact ⟨_, by rw [Kernel.update, changeMap_eq hfaults hm, hupdate]⟩

variable [DecidableEq K]

/-- A key of which something is said, or that there is room for, gets its value. -/
theorem update_of_room (h : k.Files capacity name bytes content) (hfaults : k.faults = [])
    (hkind : (name.shape capacity).kind ≠ .array) (hbytes : Function.Injective bytes)
    (hkeys : ∀ y, y ∈ keys ↔ (content y).isSome)
    (hroom : x ∈ keys ∨ keys.card < (name.shape capacity).maxEntries) (value : Bytes) :
    ∃ k', k.update name (bytes x) value = (.ok (), k') ∧ ChangesOnly name k k' ∧
      k'.Files capacity name bytes (Function.update content x (some value)) := by
  obtain ⟨m, hm, hshape, hfiles⟩ := h
  rw [← hshape] at hkind hroom
  have hroom' : m.filed[bytes x]?.isSome ∨ m.filed.size < m.shape.maxEntries := by
    rw [hfiles.getElem?_bytes, ← hkeys, hfiles.size_eq_card hbytes hkeys]
    exact hroom
  have hfiles' := hfiles.store hbytes x value
  refine ⟨k.setMap name (m.store (bytes x) value), ?_, .setMap name k _, m.store (bytes x) value,
    map?_setMap_self hm _, hshape, hfiles'⟩
  rw [Kernel.update, changeMap_eq hfaults hm, KernelMap.update_of_room hkind hroom']

/-- A key is taken out, whether it was there or not. -/
theorem discard (h : k.Files capacity name bytes content) (hfaults : k.faults = [])
    (hkind : (name.shape capacity).kind ≠ .array) (hbytes : Function.Injective bytes) (x : K) :
    ∃ k', k.discard name (bytes x) = (.ok (), k') ∧ ChangesOnly name k k' ∧
      k'.Files capacity name bytes (Function.update content x none) := by
  obtain ⟨m, hm, hshape, hfiles⟩ := h
  rw [← hshape] at hkind
  cases hx : content x with
  | some value =>
    have hsome : m.filed[bytes x]?.isSome := by
      rw [hfiles.getElem?_bytes, hx]
      rfl
    let m' : KernelMap := { m with filed := m.filed.erase (bytes x) }
    have hdelete : m.delete (bytes x) = .ok m' := KernelMap.delete_of_some hkind hsome
    refine ⟨k.setMap name m', ?_, .setMap name k m', m', map?_setMap_self hm m', hshape,
      hfiles.erase hbytes x⟩
    rw [Kernel.discard, Kernel.delete, changeMap_eq hfaults hm, hdelete]
  | none =>
    have hnone : m.filed[bytes x]? = none := (hfiles.getElem?_bytes x).trans hx
    have hdelete := KernelMap.delete_of_none hkind hnone
    have hsame : Function.update content x none = content := Function.update_eq_self_iff.2 hx.symm
    refine ⟨k, ?_, .refl name k, m, hm, hshape, hsame.symm ▸ hfiles⟩
    rw [Kernel.discard, Kernel.delete, changeMap_eq hfaults hm, hdelete]
    rfl

end Files

end Files

end Kernel
end SourceFilter
