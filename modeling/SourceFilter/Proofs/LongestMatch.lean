import SourceFilter.Proofs.Enforcement
import SourceFilter.Proofs.Run

/-!
# Longest matches

Tables that were changed by any mutations find, for every address, the longest of the blocked
prefixes that hold it. Three facts carry this: prefixes have different keys, so a search finds a
prefix exactly when it is blocked; exactly the lengths that occur are tried; and the lengths are
tried from the longest to the shortest, so that the first prefix found is the longest one.

The second fact needs room for fewer than 2^32 prefixes. With more room all addresses may be blocked
one by one, and then their count has wrapped around to zero: the first of them to be unblocked makes
the length unknown, and none of the others is found any more.
-/

namespace SourceFilter

/-- The first answer on a descending list is the one of the greatest number with an answer. -/
theorem findSome?_eq_some_iff_of_descending {n : Nat} {β : Type} {xs : List (Fin n)}
    (h : xs.Pairwise fun x y => y < x) {f : Fin n → Option β} {b : β} :
    xs.findSome? f = some b ↔ ∃ x ∈ xs, f x = some b ∧ ∀ y ∈ xs, x < y → f y = none := by
  induction xs with
  | nil => simp
  | cons x xs ih =>
    obtain ⟨hx, hxs⟩ := List.pairwise_cons.1 h
    rw [List.findSome?_cons]
    cases hf : f x with
    | some c =>
      constructor
      · intro hb
        refine ⟨x, List.mem_cons_self, hf.trans hb, fun y hy hlt => ?_⟩
        rcases List.mem_cons.1 hy with rfl | hy
        · exact absurd hlt (lt_irrefl _)
        · exact absurd hlt (not_lt_of_gt (hx y hy))
      · rintro ⟨y, hy, hb, hnone⟩
        rcases List.mem_cons.1 hy with rfl | hy
        · exact hf.symm.trans hb
        · have hskipped := hnone x List.mem_cons_self (hx y hy)
          cases hf.symm.trans hskipped
    | none =>
      simp only [ih hxs]
      constructor
      · rintro ⟨y, hy, hb, hnone⟩
        refine ⟨y, List.mem_cons_of_mem _ hy, hb, fun z hz hlt => ?_⟩
        rcases List.mem_cons.1 hz with rfl | hz
        · exact hf
        · exact hnone z hz hlt
      · rintro ⟨y, hy, hb, hnone⟩
        rcases List.mem_cons.1 hy with rfl | hy
        · cases hf.symm.trans hb
        · exact ⟨y, hy, hb, fun z hz => hnone z (List.mem_cons_of_mem _ hz)⟩

/-- Different addresses are different hosts. -/
theorem Prefix.host_injective : Function.Injective Prefix.host := by
  intro a b h
  have hnetwork : a &&& netmask 32 = b &&& netmask 32 := congrArg network h
  have hmask : netmask 32 = BitVec.allOnes 32 := by decide
  rwa [hmask, BitVec.and_allOnes, BitVec.and_allOnes] at hnetwork

namespace Tables

variable {capacity : Nat} {t : Tables capacity}

/-- The lengths are tried in descending order. -/
theorem pairwise_lengthsDescending : lengthsDescending.Pairwise fun m n => n < m := by
  rw [lengthsDescending, List.pairwise_reverse]
  exact List.pairwise_lt_finRange 33

/-- Every length may be tried. -/
theorem mem_lengthsDescending (n : Fin 33) : n ∈ lengthsDescending := by
  rw [lengthsDescending, List.mem_reverse]
  exact List.mem_finRange n

namespace Blocks

variable {blocked : Finset Prefix}

/-- A search for a length finds the prefix of this length around the address, if it is blocked. The
length need not be tried otherwise. -/
theorem try_length_eq (h : t.Blocks blocked) (hcapacity : capacity < 2 ^ 32) (a : Address)
    (n : Fin 33) :
    (if t.lengths.get n && t.blocked.contains (Prefix.around a n).key then
      some (Prefix.around a n) else none) =
      if Prefix.around a n ∈ blocked then some (Prefix.around a n) else none := by
  rw [h.contains_eq]
  by_cases hmem : Prefix.around a n ∈ blocked
  · have hsearched := (h.searched_iff hcapacity n).2 ⟨_, hmem, rfl⟩
    rw [hsearched, decide_eq_true hmem, Bool.and_self]
    rw [if_pos rfl, if_pos hmem]
  · rw [decide_eq_false hmem, Bool.and_false, if_neg Bool.false_ne_true, if_neg hmem]

/-- The longest match is the longest of the blocked prefixes that hold the address. -/
theorem longestMatch_eq_some_iff (h : t.Blocks blocked) (hcapacity : capacity < 2 ^ 32)
    {a : Address} {e : Prefix} :
    t.longestMatch a = some e ↔
      e ∈ blocked ∧ e.holds a ∧ ∀ p ∈ blocked, p.holds a → p.length ≤ e.length := by
  rw [longestMatch, findSome?_eq_some_iff_of_descending pairwise_lengthsDescending]
  simp only [h.try_length_eq hcapacity, mem_lengthsDescending, true_and, forall_const]
  constructor
  · rintro ⟨n, he, hnone⟩
    split at he
    next hmem =>
      cases he
      refine ⟨hmem, Prefix.holds_iff.2 rfl, fun p hp hholds => ?_⟩
      by_contra hlonger
      have hskipped := hnone p.length (not_le.1 hlonger)
      rw [Prefix.holds_iff.1 hholds, if_pos hp] at hskipped
      cases hskipped
    next => cases he
  · rintro ⟨he, hholds, hlongest⟩
    have haround := Prefix.holds_iff.1 hholds
    refine ⟨e.length, by rw [haround, if_pos he], fun n hlt => if_neg fun hmem => ?_⟩
    have hle := hlongest _ hmem (Prefix.holds_iff.2 rfl)
    exact absurd hlt (not_lt_of_ge hle)

/-- There is no match exactly when no blocked prefix holds the address. -/
theorem longestMatch_eq_none_iff (h : t.Blocks blocked) (hcapacity : capacity < 2 ^ 32)
    {a : Address} : t.longestMatch a = none ↔ ∀ p ∈ blocked, ¬ p.holds a := by
  have hsome := h.isSome_longestMatch hcapacity a
  rw [← Option.not_isSome_iff_eq_none, hsome]
  simp only [not_exists, not_and]

/-- Each blocked prefix is listed once. -/
theorem nodup_blacklist (h : t.Blocks blocked) : t.blacklist.Nodup :=
  (List.mergeSort_perm _ _).nodup_iff.2 h.nodup_prefixes

/-- The listed prefixes of some kind are as many as the blocked ones. -/
theorem length_filter_blacklist (h : t.Blocks blocked) (P : Prefix → Prop) [DecidablePred P] :
    (t.blacklist.filter P).length = (blocked.filter P).card := by
  have hnodup := h.nodup_blacklist.filter fun p => decide (P p)
  have hset : (t.blacklist.filter P).toFinset = blocked.filter P := by
    ext p
    rw [List.mem_toFinset, List.mem_filter, h.mem_blacklist, Finset.mem_filter, decide_eq_true_iff]
  rw [← List.toFinset_card_of_nodup hnodup, hset]

/-- The listed prefixes are as many as the blocked ones. -/
theorem length_blacklist (h : t.Blocks blocked) : t.blacklist.length = blocked.card := by
  have hall := h.length_filter_blacklist fun _ => True
  simpa only [decide_true, List.filter_true, Finset.filter_true] using hall

/-- A prefix is refused, and nothing changes, exactly when it is not blocked and there is no room
for it. -/
theorem perform_block (h : t.Blocks blocked) (p : Prefix) :
    if p ∈ blocked ∨ blocked.card < capacity then (Store.perform (.block p) t).1 = .ok ()
    else Store.perform (.block p) t = (.error (.full .blacklist capacity), t) := by
  have hperform : Store.perform (.block p) t = t.block p := rfl
  rw [hperform]
  split
  next hroom =>
    by_cases hp : p ∈ blocked
    · rw [h.block_of_mem hp]
    · obtain ⟨t', hblock, -⟩ := h.block_of_room hp (hroom.resolve_left hp)
      rw [hblock]
  next hfull =>
    obtain ⟨hp, hcard⟩ := not_or.1 hfull
    exact h.block_of_full hp (Nat.le_of_not_lt hcard)

end Blocks

/-- Tables enforce a ruleset that was changed by the same mutations, and answer as it does. -/
theorem enforces_run (capacity : Nat) (mutations : List Mutation) :
    let run := runAll Store.perform mutations (Tables.empty : Tables capacity)
    let ideal := runAll Store.perform mutations ({} : Ruleset capacity)
    run.1 = ideal.1 ∧ run.2.Enforces ideal.2 := by
  refine runAll_simulation (R := fun (t : Tables capacity) r => t.Enforces r) ?_ Enforces.empty
    mutations
  intro m t r h
  cases hm : r.refusal? m with
  | none =>
    obtain ⟨t', hperform, henforces⟩ := h.perform_of_refusal?_eq_none hm
    rw [hperform, Ruleset.perform_of_refusal?_eq_none hm]
    exact ⟨rfl, henforces⟩
  | some e =>
    rw [h.perform_of_refusal?_eq_some hm, Ruleset.perform_of_refusal?_eq_some hm]
    exact ⟨rfl, h⟩

/-- The longest match is exact. What is blocked after any mutations is what they leave of a finite
set with room for so many prefixes; each blocked prefix is listed once and is live under its own
key. A prefix is refused only when there is no room for it, and then nothing changes. A match is
always a blocked prefix that holds the address. With room for fewer than 2^32 prefixes, it is the
longest of them, and there is none only when no blocked prefix holds the address; the prefixes of
each length are counted, and exactly the lengths with a positive count are tried. -/
theorem longestMatch_exact (capacity : Nat) (mutations : List Mutation) :
    let t := (runAll Store.perform mutations (Tables.empty : Tables capacity)).2
    let rules := (runAll Store.perform mutations ({} : Ruleset capacity)).2
    (∀ p, p ∈ t.blacklist ↔ p ∈ rules.blocked) ∧
    (∀ p, p ∈ t.blacklist ↔ t.blocked.contains p.key) ∧
    t.blacklist.Nodup ∧ Function.Injective Prefix.key ∧ t.blacklist.length ≤ capacity ∧
    (∀ p, if p ∈ t.blacklist ∨ t.blacklist.length < capacity then
        (Store.perform (.block p) t).1 = .ok ()
      else Store.perform (.block p) t = (.error (.full .blacklist capacity), t)) ∧
    (∀ a e, t.longestMatch a = some e → e ∈ t.blacklist ∧ e.holds a) ∧
    (capacity < 2 ^ 32 →
      (∀ a e, t.longestMatch a = some e ↔
        e ∈ t.blacklist ∧ e.holds a ∧ ∀ p ∈ t.blacklist, p.holds a → p.length ≤ e.length) ∧
      (∀ a, t.longestMatch a = none ↔ ∀ p ∈ t.blacklist, ¬ p.holds a) ∧
      (∀ n, t.lengths.get n = true ↔ 0 < t.lengthCounts.get n) ∧
      ∀ n, (t.lengthCounts.get n).toNat = (t.blacklist.filter fun p => p.length = n).length) := by
  intro t rules
  have h : t.Blocks rules.blocked := (enforces_run capacity mutations).2.blocks
  refine ⟨fun p => h.mem_blacklist, fun p => ?_, h.nodup_blacklist, Prefix.key_injective,
    ?_, fun p => ?_, fun a e ha => ?_, fun hcapacity => ⟨fun a e => ?_, fun a => ?_,
    fun n => ?_, fun n => ?_⟩⟩
  · rw [h.mem_blacklist, h.contains_eq, decide_eq_true_iff]
  · rw [h.length_blacklist]
    exact h.card_le
  · simp only [h.mem_blacklist, h.length_blacklist]
    exact h.perform_block p
  · obtain ⟨hmem, hholds, -⟩ := h.mem_of_longestMatch ha
    exact ⟨h.mem_blacklist.2 hmem, hholds⟩
  · rw [h.longestMatch_eq_some_iff hcapacity]
    simp only [h.mem_blacklist]
  · rw [h.longestMatch_eq_none_iff hcapacity]
    simp only [h.mem_blacklist]
  · rw [h.searched_eq hcapacity, decide_eq_true_iff, UInt32.pos_iff_ne_zero]
  · rw [(h.knows n).count_eq hcapacity, h.length_filter_blacklist]

/-- The longer of two prefixes that hold an address is its match, also after a third one was
refused. -/
theorem longestMatch_exact_when_full :
    let a := Address.ofOctets 10 1 2 3
    let q := Prefix.around a 16
    let mutations : List Mutation := [.block (.around a 8), .block q, .block (.host a)]
    let t := (runAll Store.perform mutations (Tables.empty : Tables 2)).2
    2 < 2 ^ 32 ∧ t.longestMatch a = some q ∧ q ∈ t.blacklist ∧
      (∀ p ∈ t.blacklist, p.holds a → p.length ≤ 16) ∧
      (t.lengthCounts.get 16).toNat = (t.blacklist.filter fun p => p.length = 16).length := by
  intro a q mutations t
  have hcapacity : 2 < 2 ^ 32 := by decide
  have hfound : t.longestMatch a = some q := by decide +kernel
  obtain ⟨-, -, -, -, -, -, -, hexact⟩ := longestMatch_exact 2 mutations
  obtain ⟨hmatch, -, -, hcounts⟩ := hexact hcapacity
  obtain ⟨hmem, -, hlongest⟩ := (hmatch a q).1 hfound
  exact ⟨hcapacity, hfound, hmem, hlongest, hcounts 16⟩

/-- When none of their lengths is tried, no blocked prefix is found. -/
theorem Blocks.longestMatch_eq_none_of_unsearched {blocked : Finset Prefix} (h : t.Blocks blocked)
    (hlengths : ∀ p ∈ blocked, t.lengths.get p.length = false) (a : Address) :
    t.longestMatch a = none := by
  rw [Option.eq_none_iff_forall_ne_some]
  intro p hp
  obtain ⟨hmem, -, hsearched⟩ := h.mem_of_longestMatch hp
  cases hsearched.symm.trans (hlengths p hmem)

/-- Hosts that are blocked one after the other, while there is room, are counted modulo 2^32. -/
theorem Blocks.run_block_hosts {blocked : Finset Prefix} {addresses : List Address}
    (h : t.Blocks blocked) (hnodup : addresses.Nodup)
    (hnew : ∀ a ∈ addresses, Prefix.host a ∉ blocked)
    (hroom : blocked.card + addresses.length ≤ capacity) :
    let filled := (runAll Store.perform (addresses.map fun a => Mutation.block (.host a)) t).2
    filled.Blocks (blocked ∪ (addresses.map Prefix.host).toFinset) ∧
      filled.lengthCounts.get 32 = t.lengthCounts.get 32 + UInt32.ofNat addresses.length := by
  induction addresses generalizing t blocked with
  | nil =>
    refine ⟨?_, (UInt32.add_zero _).symm⟩
    rw [List.map_nil, List.map_nil, List.toFinset_nil, Finset.union_empty]
    exact h
  | cons a addresses ih =>
    obtain ⟨ha, hrest⟩ := List.forall_mem_cons.1 hnew
    obtain ⟨hfirst, hnodup⟩ := List.nodup_cons.1 hnodup
    rw [List.length_cons] at hroom
    obtain ⟨t', hblock, hblocks, hcounts, -⟩ := h.block_of_room ha (by omega)
    have hnew' (b : Address) (hb : b ∈ addresses) :
        Prefix.host b ∉ insert (Prefix.host a) blocked := by
      rw [Finset.mem_insert, not_or]
      refine ⟨fun he => hfirst ?_, hrest b hb⟩
      exact Prefix.host_injective he ▸ hb
    have hroom' : (insert (Prefix.host a) blocked).card + addresses.length ≤ capacity := by
      rw [Finset.card_insert_of_notMem ha]
      omega
    obtain ⟨hfilled, hcount⟩ := ih hblocks hnodup hnew' hroom'
    have hrun : (runAll Store.perform
        ((a :: addresses).map fun a => Mutation.block (.host a)) t).2 =
        (runAll Store.perform (addresses.map fun a => Mutation.block (.host a)) t').2 := by
      have hperform : Store.perform (.block (.host a)) t = (.ok (), t') := hblock
      rw [List.map_cons, runAll, hperform]
    rw [hrun]
    constructor
    · rw [List.map_cons, List.toFinset_cons, Finset.union_insert, ← Finset.insert_union]
      exact hfilled
    · have hlength : (Prefix.host a).length = 32 := rfl
      rw [hcount, hcounts, SlotTable.get_set, if_pos hlength, hlength, List.length_cons,
        UInt32.ofNat_add, UInt32.add_assoc, UInt32.add_comm 1]
      rfl

/-- With room for 2^32 prefixes, no match is found any more when all addresses were blocked one by
one and then one of them is unblocked: the count of the hosts has wrapped around to zero, and so the
removal makes their length unknown. All others are blocked still. -/
theorem longestMatch_eq_none_of_wrapped (hcapacity : 2 ^ 32 ≤ capacity) {addresses : List Address}
    (hnodup : addresses.Nodup) (hlength : addresses.length = 2 ^ 32) {freed : Address}
    (hfreed : freed ∈ addresses) :
    let blocks := addresses.map fun a => Mutation.block (.host a)
    let t := (runAll Store.perform (blocks ++ [.unblock (.host freed)])
      (Tables.empty : Tables capacity)).2
    (∀ a ∈ addresses, a ≠ freed → Prefix.host a ∈ t.blacklist) ∧
      ∀ a, t.longestMatch a = none := by
  intro blocks t
  let filled := (runAll Store.perform blocks (Tables.empty : Tables capacity)).2
  obtain ⟨hfilled, hcount⟩ : filled.Blocks (∅ ∪ (addresses.map Prefix.host).toFinset) ∧ _ :=
    Enforces.empty.blocks.run_block_hosts hnodup (fun a _ => Finset.notMem_empty _)
      (by rwa [Finset.card_empty, Nat.zero_add, hlength])
  rw [Finset.empty_union] at hfilled
  have hzero : oneLess (filled.lengthCounts.get 32) = 0 := by
    have hempty : (Tables.empty : Tables capacity).lengthCounts.get 32 = 0 :=
      Vector.getElem_replicate (Fin.isLt 32)
    have hwrapped : UInt32.ofNat (2 ^ 32) = 0 := by decide
    rw [hcount, hlength, hempty, hwrapped]
    rfl
  have hmem : Prefix.host freed ∈ (addresses.map Prefix.host).toFinset :=
    List.mem_toFinset.2 (List.mem_map_of_mem hfreed)
  have ht : t = filled.unblock (.host freed) := runAll_append blocks _ _
  obtain ⟨hblocks, hlengths, -⟩ := hfilled.unblock_of_mem hmem
  rw [← ht] at hblocks hlengths
  have hunknown : t.lengths.get 32 = false := by
    rw [hlengths.trans (if_pos hzero), SlotTable.get_set]
    rfl
  refine ⟨fun a ha hne => ?_, hblocks.longestMatch_eq_none_of_unsearched fun p hp => ?_⟩
  · rw [hblocks.mem_blacklist, Finset.mem_erase]
    refine ⟨fun he => hne (Prefix.host_injective he), ?_⟩
    exact List.mem_toFinset.2 (List.mem_map_of_mem ha)
  · obtain ⟨b, -, rfl⟩ := List.mem_map.1 (List.mem_toFinset.1 (Finset.mem_of_mem_erase hp))
    exact hunknown

/-- When all addresses were blocked in their order, and then 0.0.0.1 is unblocked, 10.0.0.1 is still
blocked and has no match. -/
theorem blocked_host_without_match :
    let addresses : List Address := (List.finRange (2 ^ 32)).map BitVec.ofFin
    let blocks := addresses.map fun a => Mutation.block (.host a)
    let t := (runAll Store.perform (blocks ++ [.unblock (.host (Address.ofOctets 0 0 0 1))])
      (Tables.empty : Tables (2 ^ 32))).2
    let a := Address.ofOctets 10 0 0 1
    Prefix.host a ∈ t.blacklist ∧ (Prefix.host a).holds a ∧ t.longestMatch a = none := by
  intro addresses blocks t a
  have hnodup : addresses.Nodup :=
    (List.nodup_finRange _).map fun i j h => BitVec.ofFin.inj h
  have hlength : addresses.length = 2 ^ 32 := by
    rw [List.length_map, List.length_finRange]
  have hall (b : Address) : b ∈ addresses := List.mem_map.2 ⟨b.toFin, List.mem_finRange _, rfl⟩
  obtain ⟨hblocked, hnone⟩ :=
    longestMatch_eq_none_of_wrapped (Nat.le_refl _) hnodup hlength (hall (Address.ofOctets 0 0 0 1))
  have hne : a ≠ Address.ofOctets 0 0 0 1 := by decide
  exact ⟨hblocked a (hall a) hne, Prefix.holds_iff.2 rfl, hnone a⟩

end Tables

end SourceFilter
