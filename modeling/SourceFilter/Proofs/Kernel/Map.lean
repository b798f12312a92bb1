import SourceFilter.Kernel.Map
import Mathlib.Data.Finset.Card
import Mathlib.Data.List.Nodup

/-!
# What a kernel map holds

A hash map or a trie in the kernel holds a finite map when the bytes of the keys tell them apart and
the map has the value of each key under its bytes, and nothing else. A key that is there, or that
there is room for, gets its value; without room, nothing is filed. Numbers and addresses are read
back from the bytes they were written in.
-/

namespace SourceFilter

namespace Bytes

/-- There are as many bytes as were asked for. -/
theorem length_ofNat (width n : Nat) : (ofNat width n).length = width := by
  induction width generalizing n with
  | zero => rfl
  | succ width ih => rw [ofNat, List.length_cons, ih]

/-- An address is read back from its bytes. -/
theorem toAddress_ofAddress (a : Address) : toAddress (ofAddress a) = a := by
  apply BitVec.eq_of_toNat_eq
  have hlt := a.isLt
  simp only [toAddress, ofAddress, Address.octets, List.map_cons, List.map_nil, List.reverse_cons,
    List.reverse_nil, List.nil_append, List.cons_append, toNat, UInt8.toNat_ofNat',
    BitVec.toNat_ofNat]
  omega

/-- Different addresses have different bytes. -/
theorem ofAddress_injective : Function.Injective ofAddress := by
  intro a b h
  have hread : toAddress (ofAddress a) = toAddress (ofAddress b) := congrArg toAddress h
  rwa [toAddress_ofAddress, toAddress_ofAddress] at hread

end Bytes

namespace KernelMap

variable {K : Type} {m : KernelMap} {key value : Bytes}

section Calls

/-- Only arrays have indices. -/
theorem isIndex_of_kind_ne {shape : MapShape} (h : shape.kind ≠ .array) (key : Bytes) :
    shape.isIndex key = false := by
  rw [MapShape.isIndex, decide_eq_false h, Bool.false_and, Bool.false_and]

/-- What a map that is no array answers is what was filed. -/
theorem lookup?_of_kind_ne (h : m.shape.kind ≠ .array) (key : Bytes) :
    m.lookup? key = m.filed[key]? := by
  rw [lookup?, isIndex_of_kind_ne h]
  cases m.filed[key]? <;> rfl

/-- A key that is there, or that there is room for, gets the value. -/
theorem update_of_room (h : m.shape.kind ≠ .array)
    (hroom : m.filed[key]?.isSome ∨ m.filed.size < m.shape.maxEntries) :
    m.update key value = .ok (m.store key value) := by
  rw [update, lookup?_of_kind_ne h]
  by_cases hsome : m.filed[key]?.isSome
  · rw [if_pos hsome]
  · rw [if_neg hsome, if_neg h, if_pos (hroom.resolve_left hsome)]

/-- Without room, one more key is refused. -/
theorem update_of_full (h : m.shape.kind ≠ .array) (hnone : m.filed[key]? = none)
    (hfull : m.shape.maxEntries ≤ m.filed.size) (value : Bytes) :
    ∃ errno, m.update key value = .error errno := by
  have hsome : ¬ (m.filed[key]?).isSome := by
    rw [hnone]
    exact Bool.false_ne_true
  rw [update, lookup?_of_kind_ne h, if_neg hsome, if_neg h, if_neg (Nat.not_lt.2 hfull)]
  exact ⟨_, rfl⟩

/-- A key that is there is taken out. -/
theorem delete_of_some (h : m.shape.kind ≠ .array) (hsome : m.filed[key]?.isSome) :
    m.delete key = .ok { m with filed := m.filed.erase key } := by
  rw [← Std.TreeMap.contains_eq_isSome_getElem?] at hsome
  rw [delete, isIndex_of_kind_ne h, if_neg Bool.false_ne_true, if_pos hsome]

/-- There is no such entry when the key is not there. -/
theorem delete_of_none (h : m.shape.kind ≠ .array) (hnone : m.filed[key]? = none) :
    m.delete key = .error .noEntry := by
  have hcontains : m.filed.contains key = false := by
    rw [Std.TreeMap.contains_eq_isSome_getElem?, hnone]
    rfl
  rw [delete, isIndex_of_kind_ne h, hcontains, if_neg Bool.false_ne_true, if_neg Bool.false_ne_true]

/-- A map that is no array lists the keys that were filed. -/
theorem keys_of_kind_ne (h : m.shape.kind ≠ .array) : m.keys = m.filed.keys := by
  rw [keys, entries, if_neg h]
  exact Std.TreeMap.map_fst_toList_eq_keys

end Calls

/-- The map holds what is said of some keys, each under its bytes, and nothing else. -/
structure Files (m : KernelMap) (bytes : K → Bytes) (content : K → Option Bytes) : Prop where
  /-- What is said of a key is filed under its bytes. -/
  getElem?_bytes : ∀ k, m.filed[bytes k]? = content k
  /-- Nothing else is filed. -/
  covered : ∀ key, key ∈ m.filed → ∃ k, bytes k = key

namespace Files

variable {bytes : K → Bytes} {content : K → Option Bytes}

/-- A new map holds nothing. -/
theorem create (shape : MapShape) (bytes : K → Bytes) :
    (KernelMap.create shape).Files bytes fun _ => none where
  getElem?_bytes _ := Std.TreeMap.getElem?_emptyc
  covered _ hkey := absurd hkey Std.TreeMap.not_mem_emptyc

/-- An entry is what is said of a key. -/
theorem getElem?_eq_some_iff (h : m.Files bytes content) :
    m.filed[key]? = some value ↔ ∃ k, bytes k = key ∧ content k = some value := by
  constructor
  · intro hvalue
    have hmem : key ∈ m.filed := by
      rw [Std.TreeMap.mem_iff_isSome_getElem?, hvalue]
      rfl
    obtain ⟨k, rfl⟩ := h.covered key hmem
    exact ⟨k, rfl, (h.getElem?_bytes k).symm.trans hvalue⟩
  · rintro ⟨k, rfl, hk⟩
    exact (h.getElem?_bytes k).trans hk

/-- A key is listed when something is said of it. -/
theorem mem_keys_iff (h : m.Files bytes content) :
    key ∈ m.filed.keys ↔ ∃ k, bytes k = key ∧ (content k).isSome := by
  rw [Std.TreeMap.mem_keys, Std.TreeMap.mem_iff_isSome_getElem?, Option.isSome_iff_exists]
  simp only [h.getElem?_eq_some_iff, Option.isSome_iff_exists]
  rw [exists_comm]
  simp only [exists_and_left]

/-- There are as many entries as keys of which something is said. -/
theorem size_eq_card (h : m.Files bytes content) (hbytes : Function.Injective bytes)
    {keys : Finset K} (hkeys : ∀ k, k ∈ keys ↔ (content k).isSome) :
    m.filed.size = keys.card := by
  have himage : keys.map ⟨bytes, hbytes⟩ = m.filed.keys.toFinset := by
    ext key
    rw [Finset.mem_map, List.mem_toFinset, h.mem_keys_iff]
    simp only [Function.Embedding.coeFn_mk, hkeys]
    exact exists_congr fun k => and_comm
  rw [← Finset.card_map ⟨bytes, hbytes⟩, himage,
    List.toFinset_card_of_nodup Std.TreeMap.nodup_keys, Std.TreeMap.length_keys]

variable [DecidableEq K] {k : K}

/-- A map that differs under the bytes of one key holds what differs for this key. -/
theorem revise (h : m.Files bytes content) (hbytes : Function.Injective bytes) {m' : KernelMap}
    {now : Option Bytes}
    (hm' : ∀ key, m'.filed[key]? = if bytes k = key then now else m.filed[key]?) :
    m'.Files bytes (Function.update content k now) := by
  constructor
  · intro k'
    rw [hm', Function.update_apply, h.getElem?_bytes]
    exact if_congr (hbytes.eq_iff.trans eq_comm) rfl rfl
  · intro key hkey
    rw [Std.TreeMap.mem_iff_isSome_getElem?, hm'] at hkey
    split at hkey
    next hk => exact ⟨k, hk⟩
    next => exact h.covered key (Std.TreeMap.mem_iff_isSome_getElem?.2 hkey)

/-- Filing a value changes what is said of the key. -/
theorem store (h : m.Files bytes content) (hbytes : Function.Injective bytes) (k : K)
    (value : Bytes) :
    (m.store (bytes k) value).Files bytes (Function.update content k (some value)) := by
  refine h.revise hbytes fun key => ?_
  rw [KernelMap.store, Std.TreeMap.getElem?_insert]
  exact if_congr Std.LawfulEqOrd.compare_eq_iff_eq rfl rfl

/-- Taking a key out leaves nothing said of it. -/
theorem erase (h : m.Files bytes content) (hbytes : Function.Injective bytes) (k : K) :
    { m with filed := m.filed.erase (bytes k) }.Files bytes
      (Function.update content k none) := by
  refine h.revise hbytes fun key => ?_
  rw [Std.TreeMap.getElem?_erase]
  exact if_congr Std.LawfulEqOrd.compare_eq_iff_eq rfl rfl

end Files

end KernelMap

end SourceFilter
