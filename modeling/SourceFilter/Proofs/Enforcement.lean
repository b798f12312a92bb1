import SourceFilter.Tables
import SourceFilter.Proofs.Roster
import SourceFilter.Proofs.Ruleset
import SourceFilter.Proofs.SlotTable.Filing

/-!
# What the filter tables enforce

The filter tables enforce a ruleset when their slot tables file its parts and what they know about
the lengths agrees with it. Every mutation is answered as by the ruleset and keeps this agreement; a
mutation that fails leaves the tables as they were, also the lengths that a refused prefix made
known for a moment. With room for fewer than 2^32 prefixes, exactly the lengths that occur are
searched. With more room a count may wrap around, and what is left is this: a length that is
searched without being counted has all its prefixes blocked, so none of them is ever refused.
-/

namespace SourceFilter

/-- Different addresses are different numbers. -/
theorem Address.toNat_injective : Function.Injective (BitVec.toNat : Address → Nat) :=
  fun _ _ => BitVec.eq_of_toNat_eq

/-- Different prefixes are filed under different numbers. -/
theorem Prefix.key_injective : Function.Injective Prefix.key := by
  intro p q h
  have hp := ofKey?_key p
  rw [h, ofKey?_key] at hp
  exact (Option.some.inj hp).symm

/-- A prefix holds the addresses that it is the prefix of its length around. -/
theorem Prefix.holds_iff {p : Prefix} {a : Address} :
    p.holds a ↔ Prefix.around a p.length = p := by
  obtain ⟨network, length, masked⟩ := p
  simp only [holds, inNetwork, masked, beq_iff_eq, around, mk.injEq, and_true]

/-- There are not more prefixes of a length than addresses, so a prefix that is left out leaves room
for fewer. -/
theorem Prefix.card_filter_length_lt {prefixes : Finset Prefix} {p : Prefix} (hp : p ∉ prefixes) :
    (prefixes.filter fun q => q.length = p.length).card < 2 ^ 32 := by
  have hnotin : p ∉ prefixes.filter fun q => q.length = p.length :=
    fun hm => hp (Finset.mem_filter.1 hm).1
  have hlength : ∀ q ∈ insert p (prefixes.filter fun q => q.length = p.length),
      q.length = p.length := by
    intro q hq
    rcases Finset.mem_insert.1 hq with rfl | hq
    · rfl
    · exact (Finset.mem_filter.1 hq).2
  have hcard := Finset.card_le_card_of_injOn (t := Finset.range (2 ^ 32))
    (fun q : Prefix => q.network.toNat) (fun q _ => Finset.mem_range.2 q.network.isLt) <| by
      intro q hq q' hq' hnetwork
      apply key_injective
      rw [key, key, hlength q hq, hlength q' hq']
      exact congrArg _ hnetwork
  rw [Finset.card_insert_of_notMem hnotin, Finset.card_range] at hcard
  exact hcard

/-- Rules of one map of rates have different sources. -/
theorem RateRule.eq_of_lookup {rates : Finmap fun _ : Address => Rate} {r s : RateRule}
    (hr : rates.lookup r.source = some r.rate) (hs : rates.lookup s.source = some s.rate)
    (h : r.rank = s.rank) : r = s := by
  obtain ⟨source, rate⟩ := r
  obtain ⟨source', rate'⟩ := s
  obtain rfl : source = source' := Address.toNat_injective h
  have hrate : some rate = some rate' := hr.symm.trans hs
  rw [Option.some.inj hrate]

/-- A vector is determined by what it holds at its places. -/
theorem vector_ext {α : Type} {n : Nat} {xs ys : Vector α n} (h : ∀ i, xs.get i = ys.get i) :
    xs = ys :=
  Vector.ext fun i hi => h ⟨i, hi⟩

namespace Tables

variable {capacity : Nat} {t : Tables capacity}

/-- On numbers, it is the predecessor. -/
theorem toNat_oneLess (count : UInt32) : (oneLess count).toNat = count.toNat - 1 := by
  rw [oneLess]
  split
  next hzero => rw [hzero, UInt32.toNat_zero]
  next hne =>
    have hpos : 1 ≤ count :=
      UInt32.le_iff_toNat_le.2 (Nat.pos_of_ne_zero fun h => hne (UInt32.toNat_inj.1 h))
    rw [UInt32.toNat_sub_of_le _ _ hpos, UInt32.toNat_one]

/-- What the tables know about a length that so many of their blocked prefixes have. -/
structure Knows (capacity number : Nat) (count : UInt32) (searched : Bool) : Prop where
  /-- Not more are counted. -/
  count_le : count.toNat ≤ number
  /-- All are counted unless there is room for 2^32. -/
  count_eq : capacity < 2 ^ 32 → count.toNat = number
  /-- A length with a count is searched. -/
  searched_of_count : count ≠ 0 → searched = true
  /-- The count of a length that is searched without one has wrapped around. -/
  wrapped : searched = true → count = 0 → 2 ^ 32 ≤ number

namespace Knows

variable {number : Nat} {count : UInt32} {searched : Bool}

/-- A length without prefixes is not searched. -/
theorem zero : Knows capacity 0 0 false where
  count_le := Nat.le_refl 0
  count_eq _ := rfl
  searched_of_count h := absurd rfl h
  wrapped h := absurd h Bool.false_ne_true

/-- One prefix more is counted, and its length is searched. -/
theorem succ (h : Knows capacity number count searched) (hroom : number < capacity) :
    Knows capacity (number + 1) (count + 1) true := by
  have hle := h.count_le
  have hadd : (count + 1).toNat = (count.toNat + 1) % 2 ^ 32 := UInt32.toNat_add count 1
  refine ⟨?_, fun hcapacity => ?_, fun _ => rfl, fun _ hzero => ?_⟩
  · exact hadd.trans_le ((Nat.mod_le _ _).trans (Nat.succ_le_succ hle))
  · rw [hadd, h.count_eq hcapacity]
    exact Nat.mod_eq_of_lt (Nat.lt_of_le_of_lt hroom hcapacity)
  · rw [hzero, UInt32.toNat_zero] at hadd
    have hlt := count.toNat_lt
    omega

/-- One prefix less is counted, and its length is searched as long as others are counted. -/
theorem pred (h : Knows capacity number count searched) :
    Knows capacity (number - 1) (oneLess count)
      (if oneLess count = 0 then false else searched) := by
  have hcount := toNat_oneLess count
  refine ⟨?_, fun hcapacity => ?_, fun hne => ?_, fun hsearched hzero => ?_⟩
  · rw [hcount]
    exact Nat.sub_le_sub_right h.count_le 1
  · rw [hcount, h.count_eq hcapacity]
  · rw [if_neg hne]
    apply h.searched_of_count
    rintro rfl
    exact hne rfl
  · rw [if_pos hzero] at hsearched
    cases hsearched

/-- As long as the count cannot have wrapped around, a length is searched when it has a count. -/
theorem searched_eq (h : Knows capacity number count searched) (hfew : number < 2 ^ 32) :
    searched = decide (count ≠ 0) := by
  by_cases hzero : count = 0
  · rw [decide_eq_false (not_not_intro hzero), Bool.eq_false_iff]
    intro hsearched
    exact absurd (h.wrapped hsearched hzero) (Nat.not_le_of_lt hfew)
  · rw [decide_eq_true hzero]
    exact h.searched_of_count hzero

end Knows

/-- The tables block the prefixes of a set and no others. -/
structure Blocks (t : Tables capacity) (blocked : Finset Prefix) : Prop where
  /-- The keys of the prefixes are filed. -/
  filed : t.blocked.Files Prefix.key (Finite.presence blocked)
  /-- Each length is known by the number of its prefixes. -/
  knows : ∀ n, Knows capacity (blocked.filter fun p => p.length = n).card
    (t.lengthCounts.get n) (t.lengths.get n)

/-- The tables hold sources to the rates of a map and no others. -/
def Limits (t : Tables capacity) (rates : Finmap fun _ : Address => Rate) : Prop :=
  t.rates.Files BitVec.toNat fun source => (rates.lookup source).map some

/-- The tables enforce a ruleset. -/
structure Enforces (t : Tables capacity) (r : Ruleset capacity) : Prop where
  /-- The blocked prefixes are those of the ruleset. -/
  blocks : t.Blocks r.blocked
  /-- The rates are those of the ruleset. -/
  limits : t.Limits r.rates
  /-- The generation number is that of the ruleset. -/
  generation : t.generation = r.generation

namespace Blocks

variable {blocked : Finset Prefix} {p : Prefix}

/-- What is blocked does not depend on the other tables. -/
theorem of_eq (h : t.Blocks blocked) {t' : Tables capacity} (hblocked : t'.blocked = t.blocked)
    (hcounts : t'.lengthCounts = t.lengthCounts) (hlengths : t'.lengths = t.lengths) :
    t'.Blocks blocked := by
  constructor
  · rw [hblocked]
    exact h.filed
  · rw [hcounts, hlengths]
    exact h.knows

/-- A prefix is filed when it is blocked. -/
theorem contains_eq (h : t.Blocks blocked) (p : Prefix) :
    t.blocked.contains p.key = decide (p ∈ blocked) := by
  rw [SlotTable.contains_eq_isSome, h.filed.get?_number, Bool.eq_iff_iff, decide_eq_true_iff]
  exact Finite.isSome_presence

/-- There are as many keys as blocked prefixes. -/
theorem size_eq (h : t.Blocks blocked) : t.blocked.size = blocked.card := by
  exact h.filed.size_eq_card Prefix.key_injective fun _ => Finite.isSome_presence.symm

/-- There are not more blocked prefixes than there is room for. -/
theorem card_le (h : t.Blocks blocked) : blocked.card ≤ capacity :=
  h.size_eq ▸ h.filed.sound.bounded

/-- With room for fewer than 2^32 prefixes, the lengths that are searched are those with a count. -/
theorem searched_eq (h : t.Blocks blocked) (hcapacity : capacity < 2 ^ 32) (n : Fin 33) :
    t.lengths.get n = decide (t.lengthCounts.get n ≠ 0) := by
  have hle : (blocked.filter fun p => p.length = n).card ≤ capacity :=
    (Finset.card_filter_le _ _).trans h.card_le
  exact (h.knows n).searched_eq (Nat.lt_of_le_of_lt hle hcapacity)

/-- They are the lengths of the blocked prefixes. -/
theorem searched_iff (h : t.Blocks blocked) (hcapacity : capacity < 2 ^ 32) (n : Fin 33) :
    t.lengths.get n = true ↔ ∃ p ∈ blocked, p.length = n := by
  have hcount := (h.knows n).count_eq hcapacity
  rw [h.searched_eq hcapacity, decide_eq_true_iff, ne_eq, ← UInt32.toNat_inj, hcount,
    UInt32.toNat_zero, Finset.card_eq_zero, Finset.filter_eq_empty_iff]
  push Not
  rfl

/-- One more blocked prefix of a length, when it is counted and searched, is known. -/
theorem knows_insert (h : t.Blocks blocked) (hp : p ∉ blocked) (hroom : blocked.card < capacity)
    (n : Fin 33) :
    Knows capacity ((insert p blocked).filter fun q => q.length = n).card
      ((t.lengthCounts.set p.length (t.lengthCounts.get p.length + 1) p.length.isLt).get n)
      ((t.lengths.set p.length true p.length.isLt).get n) := by
  rw [SlotTable.get_set, SlotTable.get_set, Finset.filter_insert]
  by_cases hn : p.length = n
  · subst hn
    have hnotin : p ∉ blocked.filter fun q => q.length = p.length :=
      fun hm => hp (Finset.mem_filter.1 hm).1
    have hfew : (blocked.filter fun q => q.length = p.length).card < capacity :=
      (Finset.card_filter_le _ _).trans_lt hroom
    rw [if_pos rfl, if_pos rfl, if_pos rfl, Finset.card_insert_of_notMem hnotin]
    exact (h.knows p.length).succ hfew
  · rw [if_neg hn, if_neg hn, if_neg hn]
    exact h.knows n

/-- One blocked prefix less of a length, when it is not counted any more, is known. -/
theorem knows_erase (h : t.Blocks blocked) (hp : p ∈ blocked) (n : Fin 33) :
    let count := oneLess (t.lengthCounts.get p.length)
    Knows capacity ((blocked.erase p).filter fun q => q.length = n).card
      ((t.lengthCounts.set p.length count p.length.isLt).get n)
      ((if count = 0 then t.lengths.set p.length false p.length.isLt else t.lengths).get n) := by
  intro count
  rw [SlotTable.get_set, apply_ite (Vector.get · n), SlotTable.get_set, Finset.filter_erase]
  by_cases hn : p.length = n
  · subst hn
    have hmem : p ∈ blocked.filter fun q => q.length = p.length := Finset.mem_filter.2 ⟨hp, rfl⟩
    rw [if_pos rfl, if_pos rfl, Finset.card_erase_of_mem hmem]
    exact (h.knows p.length).pred
  · have hnotin : p ∉ blocked.filter fun q => q.length = n :=
      fun hm => hn (Finset.mem_filter.1 hm).2
    rw [if_neg hn, if_neg hn, ite_self, Finset.erase_eq_of_notMem hnotin]
    exact h.knows n

/-- Blocking a blocked prefix changes nothing. -/
theorem block_of_mem (h : t.Blocks blocked) (hp : p ∈ blocked) : t.block p = (.ok (), t) := by
  rw [block, h.contains_eq, decide_eq_true hp, if_pos rfl]

/-- Without room, blocking one more prefix is refused and changes nothing: the length that was made
known for a moment is unknown again unless another prefix has it. Its count has not wrapped around,
as the refused prefix is one of its length that is not blocked. -/
theorem block_of_full (h : t.Blocks blocked) (hp : p ∉ blocked) (hfull : capacity ≤ blocked.card) :
    t.block p = (.error (.full .blacklist capacity), t) := by
  have hnone : t.blocked.get? p.key = none := by
    rw [h.filed.get?_number, Finite.presence, if_neg hp]
  have hput := SlotTable.put_of_full hnone (h.size_eq ▸ hfull) id
  have hlengths : (if t.lengthCounts.get p.length = 0
      then (t.lengths.set p.length true).set p.length false
      else t.lengths.set p.length true) = t.lengths := by
    apply vector_ext
    intro n
    by_cases hn : p.length = n
    · subst hn
      have hsearched := (h.knows p.length).searched_eq (Prefix.card_filter_length_lt hp)
      by_cases hzero : t.lengthCounts.get p.length = 0
      · rw [if_pos hzero, SlotTable.get_set, if_pos rfl, hsearched, hzero]
        rfl
      · rw [if_neg hzero, SlotTable.get_set, if_pos rfl, hsearched, decide_eq_true hzero]
    · split <;> simp only [SlotTable.get_set, if_neg hn]
  rw [block, h.contains_eq, decide_eq_false hp]
  simp only [Bool.false_eq_true, if_false, hput, hlengths]

/-- With room, one more prefix is blocked, and its length is counted and searched. -/
theorem block_of_room (h : t.Blocks blocked) (hp : p ∉ blocked) (hroom : blocked.card < capacity) :
    ∃ t', t.block p = (.ok (), t') ∧ t'.Blocks (insert p blocked) ∧
      t'.lengthCounts =
        t.lengthCounts.set p.length (t.lengthCounts.get p.length + 1) p.length.isLt ∧
      t'.rates = t.rates ∧ t'.generation = t.generation := by
  have hnone : t.blocked.get? p.key = none := by
    rw [h.filed.get?_number, Finite.presence, if_neg hp]
  obtain ⟨t', hput, hr, -⟩ := h.filed.sound.put_of_room hnone (h.size_eq ▸ hroom) id
  rw [block, h.contains_eq, decide_eq_false hp]
  simp only [Bool.false_eq_true, if_false, hput]
  refine ⟨_, rfl, ⟨?_, h.knows_insert hp hroom⟩, rfl, rfl, rfl⟩
  rw [Finite.presence_insert]
  exact h.filed.revise Prefix.key_injective hr

/-- Unblocking a blocked prefix takes it out of the set, and its length out of the count; the last
one that is counted makes the length unknown. -/
theorem unblock_of_mem (h : t.Blocks blocked) (hp : p ∈ blocked) :
    (t.unblock p).Blocks (blocked.erase p) ∧
      (t.unblock p).lengths =
        (if oneLess (t.lengthCounts.get p.length) = 0 then
          t.lengths.set p.length false p.length.isLt else t.lengths) ∧
      (t.unblock p).rates = t.rates ∧ (t.unblock p).generation = t.generation := by
  have hkey : t.blocked.get? p.key = some () := by
    rw [h.filed.get?_number, Finite.presence, if_pos hp]
  obtain ⟨t', hremove, hr, -⟩ := h.filed.sound.remove_of_get?_eq_some hkey
  rw [Tables.unblock, hremove]
  refine ⟨⟨?_, h.knows_erase hp⟩, rfl, rfl, rfl⟩
  rw [Finite.presence_erase]
  exact h.filed.revise Prefix.key_injective hr

/-- Unblocking any prefix takes it out of the set. -/
theorem unblock (h : t.Blocks blocked) (p : Prefix) :
    (t.unblock p).Blocks (blocked.erase p) ∧
      (t.unblock p).rates = t.rates ∧ (t.unblock p).generation = t.generation := by
  by_cases hp : p ∈ blocked
  · obtain ⟨hblocks, -, hothers⟩ := h.unblock_of_mem hp
    exact ⟨hblocks, hothers⟩
  · have hkey : t.blocked.get? p.key = none := by
      rw [h.filed.get?_number, Finite.presence, if_neg hp]
    rw [Tables.unblock, SlotTable.remove_of_get?_eq_none hkey, Finset.erase_eq_of_notMem hp]
    exact ⟨h, rfl, rfl⟩

/-- A match is a blocked prefix that holds the address and has a length that is searched. -/
theorem mem_of_longestMatch (h : t.Blocks blocked) {a : Address} (ha : t.longestMatch a = some p) :
    p ∈ blocked ∧ p.holds a ∧ t.lengths.get p.length = true := by
  obtain ⟨n, -, hn⟩ := List.exists_of_findSome?_eq_some ha
  obtain ⟨hfound, hp⟩ := Option.ite_none_right_eq_some.1 hn
  rw [Bool.and_eq_true, h.contains_eq, decide_eq_true_iff] at hfound
  obtain rfl := Option.some.inj hp
  exact ⟨hfound.2, Prefix.holds_iff.2 rfl, hfound.1⟩

/-- With room for fewer than 2^32 prefixes, whether some blocked prefix holds an address is found
out by trying the lengths that occur. -/
theorem isSome_longestMatch (h : t.Blocks blocked) (hcapacity : capacity < 2 ^ 32) (a : Address) :
    (t.longestMatch a).isSome ↔ ∃ p ∈ blocked, p.holds a := by
  constructor
  · intro hsome
    obtain ⟨p, hp⟩ := Option.isSome_iff_exists.1 hsome
    obtain ⟨hmem, hholds, -⟩ := h.mem_of_longestMatch hp
    exact ⟨p, hmem, hholds⟩
  · rintro ⟨p, hp, hholds⟩
    rw [longestMatch, List.findSome?_isSome_iff]
    refine ⟨p.length, ?_, ?_⟩
    · simp [lengthsDescending]
    · have hsearched := (h.searched_iff hcapacity p.length).2 ⟨p, hp, rfl⟩
      rw [Prefix.holds_iff] at hholds
      simp [hsearched, hholds, h.contains_eq, hp]

/-- A live key is the key of a blocked prefix. -/
theorem exists_of_get? (h : t.Blocks blocked) {key : Nat} {v : Unit}
    (hv : t.blocked.get? key = some v) : ∃ p ∈ blocked, p.key = key := by
  have hcontains : t.blocked.contains key := by
    rw [SlotTable.contains_eq_isSome, hv]
    rfl
  obtain ⟨p, hp, hsome⟩ := h.filed.contains_iff.1 hcontains
  exact ⟨p, Finite.isSome_presence.1 hsome, hp⟩

/-- The blocked prefixes are read back. -/
theorem mem_blacklist (h : t.Blocks blocked) : p ∈ t.blacklist ↔ p ∈ blocked := by
  rw [blacklist, List.mem_mergeSort, List.mem_filterMap]
  constructor
  · rintro ⟨⟨key, v⟩, hmem, hp⟩
    obtain ⟨q, hq, rfl⟩ := h.exists_of_get? (h.filed.sound.mem_entries_iff.1 hmem)
    have hdecoded : Prefix.ofKey? q.key = some p := hp
    rw [Prefix.ofKey?_key] at hdecoded
    exact Option.some.inj hdecoded ▸ hq
  · intro hp
    refine ⟨(p.key, ()), h.filed.sound.mem_entries_iff.2 ?_, Prefix.ofKey?_key p⟩
    rw [h.filed.get?_number, Finite.presence, if_pos hp]

/-- Each blocked prefix is read back once. -/
theorem nodup_prefixes (h : t.Blocks blocked) :
    (t.blocked.entries.filterMap fun (key, _) => Prefix.ofKey? key).Nodup := by
  apply h.filed.sound.nodup_filterMap_entries Prefix.key
  intro key v hv
  obtain ⟨p, -, rfl⟩ := h.exists_of_get? hv
  exact ⟨p, Prefix.ofKey?_key p, rfl⟩

/-- The blocked prefixes are read back in their order. -/
theorem blacklist_eq (h : t.Blocks blocked) {items : Roster Prefix Prefix.rank}
    (hitems : ∀ p, p ∈ items.items ↔ p ∈ blocked) : t.blacklist = items.items := by
  apply Roster.mergeSort_eq
  · exact h.nodup_prefixes
  · intro p
    rw [hitems, ← h.mem_blacklist, blacklist, List.mem_mergeSort]

end Blocks

namespace Limits

variable {rates : Finmap fun _ : Address => Rate}

/-- There are as many keys as sources with a rate. -/
theorem size_eq (h : t.Limits rates) : t.rates.size = rates.keys.card :=
  SlotTable.Files.size_eq_card h Address.toNat_injective fun _ =>
    Finite.mem_keys_iff_isSome_map some

/-- The rate of a source that has one, or may have one more, is set. -/
theorem limit_of_room (h : t.Limits rates) (rule : RateRule)
    (hroom : rule.source ∈ rates ∨ rates.keys.card < capacity) :
    ∃ filed, t.limit rule = (.ok (), { t with rates := filed }) ∧
      Limits { t with rates := filed } (rates.insert rule.source rule.rate) := by
  have hkey := h.get?_number rule.source
  have hrevised {t' : SlotTable capacity (Option Rate)}
      (hr : t'.Revises t.rates rule.source.toNat (some (some rule.rate))) :
      Limits { t with rates := t' } (rates.insert rule.source rule.rate) := by
    rw [Limits, Finite.map_lookup_insert]
    exact SlotTable.Files.revise h Address.toNat_injective hr
  rw [limit]
  cases hv : rates.lookup rule.source with
  | some rate =>
    obtain ⟨t', hput, hr, -⟩ := h.sound.put_of_get?_eq_some (hkey.trans (congrArg _ hv))
      fun _ => some rule.rate
    simp only [hput]
    exact ⟨t', rfl, hrevised hr⟩
  | none =>
    have hlt := hroom.resolve_left (Finmap.lookup_eq_none.1 hv)
    obtain ⟨t', hput, hr, -⟩ := h.sound.put_of_room (hkey.trans (congrArg _ hv))
      (h.size_eq ▸ hlt) fun _ => some rule.rate
    simp only [hput]
    exact ⟨t', rfl, hrevised hr⟩

/-- Without room, the rate of one more source is refused and nothing changes. -/
theorem limit_of_full (h : t.Limits rates) {rule : RateRule} (hsource : rule.source ∉ rates)
    (hfull : capacity ≤ rates.keys.card) :
    t.limit rule = (.error (.full .rateRules capacity), t) := by
  have hkey := h.get?_number rule.source
  rw [Finmap.lookup_eq_none.2 hsource] at hkey
  rw [limit, SlotTable.put_of_full hkey (h.size_eq ▸ hfull)]

/-- Dropping a rule takes the source out of the map. -/
theorem unlimit (h : t.Limits rates) (source : Address) :
    (t.unlimit source).Limits (rates.erase source) := by
  have hkey := h.get?_number source
  rw [Tables.unlimit, Limits, Finite.map_lookup_erase]
  cases hv : rates.lookup source with
  | some rate =>
    obtain ⟨t', hremove, hr, -⟩ := h.sound.remove_of_get?_eq_some (hkey.trans (congrArg _ hv))
    rw [hremove]
    exact SlotTable.Files.revise h Address.toNat_injective hr
  | none =>
    rw [SlotTable.remove_of_get?_eq_none (hkey.trans (congrArg _ hv))]
    have hsame : Function.update (fun source => (rates.lookup source).map some) source none =
        fun source => (rates.lookup source).map some :=
      Function.update_eq_self_iff.2 (by rw [hv, Option.map_none])
    rw [hsame]
    exact h

/-- The interval that is enforced is the one of the rate. -/
theorem interval?_eq (h : t.Limits rates) (source : Address) :
    t.interval? source = (rates.lookup source).map Rate.interval := by
  rw [interval?, h.get?_number, Option.map_map]
  rfl

/-- A live key is the number of a source with a rate. -/
theorem exists_of_get? (h : t.Limits rates) {key : Nat} {v : Option Rate}
    (hv : t.rates.get? key = some v) :
    ∃ source rate, rates.lookup source = some rate ∧ source.toNat = key ∧ v = some rate := by
  have hcontains : t.rates.contains key := by
    rw [SlotTable.contains_eq_isSome, hv]
    rfl
  obtain ⟨source, rfl, -⟩ := h.contains_iff.1 hcontains
  rw [h.get?_number, Option.map_eq_some_iff] at hv
  obtain ⟨rate, hrate, rfl⟩ := hv
  exact ⟨source, rate, hrate, rfl, rfl⟩

/-- The rules are read back. -/
theorem mem_rateRules (h : t.Limits rates) {rule : RateRule} :
    rule ∈ t.rateRules ↔ rates.lookup rule.source = some rule.rate := by
  rw [rateRules, List.mem_mergeSort, List.mem_filterMap]
  constructor
  · rintro ⟨⟨key, v⟩, hmem, hrule⟩
    obtain ⟨source, rate, hrate, rfl, rfl⟩ := h.exists_of_get? (h.sound.mem_entries_iff.1 hmem)
    simp only [Option.map_some, Option.some.injEq, BitVec.ofNat_toNat, BitVec.setWidth_eq] at hrule
    rw [← hrule]
    exact hrate
  · intro hrule
    refine ⟨(rule.source.toNat, some rule.rate), h.sound.mem_entries_iff.2 ?_, ?_⟩
    · rw [h.get?_number, hrule, Option.map_some]
    · simp [BitVec.ofNat_toNat]

/-- Each rule is read back once. -/
theorem nodup_rules (h : t.Limits rates) :
    (t.rates.entries.filterMap fun (key, rate) =>
      rate.map (RateRule.mk (BitVec.ofNat 32 key))).Nodup := by
  apply h.sound.nodup_filterMap_entries fun rule => rule.source.toNat
  intro key v hv
  obtain ⟨source, rate, -, rfl, rfl⟩ := h.exists_of_get? hv
  exact ⟨⟨source, rate⟩, by simp [BitVec.ofNat_toNat], rfl⟩

/-- The rules are read back in the order of their sources. -/
theorem rateRules_eq (h : t.Limits rates) {items : Roster RateRule RateRule.rank}
    (hitems : ∀ rule, rule ∈ items.items ↔ rates.lookup rule.source = some rule.rate) :
    t.rateRules = items.items := by
  apply Roster.mergeSort_eq
  · exact h.nodup_rules
  · intro rule
    rw [hitems, ← h.mem_rateRules, rateRules, List.mem_mergeSort]

end Limits

namespace Enforces

variable {r : Ruleset capacity} {m : Mutation}

/-- Tables without entries enforce nothing. -/
theorem empty : (Tables.empty : Tables capacity).Enforces {} where
  blocks :=
    { filed := SlotTable.Files.empty Prefix.key
      knows := by
        intro n
        have hcount : (Tables.empty : Tables capacity).lengthCounts.get n = 0 :=
          Vector.getElem_replicate n.isLt
        have hsearched : (Tables.empty : Tables capacity).lengths.get n = false :=
          Vector.getElem_replicate n.isLt
        rw [hcount, hsearched, Finset.filter_empty, Finset.card_empty]
        exact .zero }
  limits := SlotTable.Files.empty BitVec.toNat
  generation := rfl

/-- What is enforced does not depend on the times of admitted packets and the counts. -/
theorem with_records (h : t.Enforces r) (stamps : Stamps capacity)
    (tallies : SlotTable capacity Tally) (totals : Tally) :
    { t with stamps := stamps, tallies := tallies, totals := totals }.Enforces r :=
  ⟨h.blocks.of_eq rfl rfl rfl, h.limits, h.generation⟩

/-- What the ruleset does not refuse takes effect, in the tables as in the ruleset. -/
theorem perform_of_refusal?_eq_none (h : t.Enforces r) (hm : r.refusal? m = none) :
    ∃ t', Store.perform m t = (.ok (), t') ∧ t'.Enforces (r.obey m) := by
  cases m with
  | block p =>
    by_cases hp : p ∈ r.blocked
    · refine ⟨t, h.blocks.block_of_mem hp, ?_⟩
      rw [Ruleset.obey, Finset.insert_eq_self.2 hp]
      exact h
    · have hroom : r.blocked.card < capacity := by
        by_contra hfull
        simp [Ruleset.refusal?, hp, hfull] at hm
      obtain ⟨t', hblock, hblocks, -, hrates, hgeneration⟩ := h.blocks.block_of_room hp hroom
      refine ⟨t', hblock, hblocks, ?_, hgeneration.trans h.generation⟩
      rw [Limits, hrates]
      exact h.limits
  | unblock p =>
    obtain ⟨hblocks, hrates, hgeneration⟩ := h.blocks.unblock p
    refine ⟨_, rfl, hblocks, ?_, hgeneration.trans h.generation⟩
    rw [Limits, hrates]
    exact h.limits
  | limit rule =>
    have hroom : rule.source ∈ r.rates ∨ r.rates.keys.card < capacity := by
      by_contra hfull
      simp [Ruleset.refusal?, hfull] at hm
    obtain ⟨filed, hlimit, hlimits⟩ := h.limits.limit_of_room rule hroom
    exact ⟨_, hlimit, h.blocks.of_eq rfl rfl rfl, hlimits, h.generation⟩
  | unlimit source =>
    exact ⟨_, rfl, h.blocks.of_eq rfl rfl rfl, h.limits.unlimit source, h.generation⟩
  | stamp generation =>
    exact ⟨_, rfl, h.blocks.of_eq rfl rfl rfl, h.limits, rfl⟩

/-- What the ruleset refuses, the tables refuse for the same reason, and nothing changes. -/
theorem perform_of_refusal?_eq_some (h : t.Enforces r) {e : StoreError}
    (hm : r.refusal? m = some e) : Store.perform m t = (.error e, t) := by
  cases m with
  | block p =>
    rw [Ruleset.refusal?] at hm
    split at hm
    next => cases hm
    next hfull =>
      obtain ⟨hp, hcard⟩ := not_or.1 hfull
      cases hm
      exact h.blocks.block_of_full hp (Nat.le_of_not_lt hcard)
  | limit rule =>
    rw [Ruleset.refusal?] at hm
    split at hm
    next => cases hm
    next hfull =>
      obtain ⟨hsource, hcard⟩ := not_or.1 hfull
      cases hm
      exact h.limits.limit_of_full hsource (Nat.le_of_not_lt hcard)
  | unblock p => cases hm
  | unlimit source => cases hm
  | stamp generation => cases hm

end Enforces

end Tables
end SourceFilter
