import SourceFilter.Kernel.FilterMaps
import SourceFilter.Proofs.Enforcement
import SourceFilter.Proofs.Kernel.Calls

/-!
# What the kernel's maps enforce

The kernel's maps enforce a ruleset when the blacklist holds the keys of the blocked prefixes, the
rate limits hold the values of the rates under the bytes of their sources, and the generation number
is in its cell. As long as no call is set to fail, a mutation takes effect exactly when the ruleset
does not refuse it, and what is enforced is read back in its order.
-/

namespace SourceFilter

/-- What is decoded from a list without repetition is sorted as the items that it stands for. -/
theorem Roster.mergeSort_filterMap {α β L : Type} {rank : α → Nat} {entries : List β}
    {xs : List α} {key : β → L} {label : α → L} (decode : β → Option α)
    (honce : (entries.map key).Nodup) (hnodup : xs.Nodup)
    (hrank : ∀ x ∈ xs, ∀ y ∈ xs, rank x = rank y → x = y)
    (hdecode : ∀ e ∈ entries, ∃ x ∈ xs, decode e = some x ∧ label x = key e)
    (hcode : ∀ x ∈ xs, ∃ e ∈ entries, decode e = some x) :
    (entries.filterMap decode).mergeSort (fun x y => rank x ≤ rank y) =
      xs.mergeSort fun x y => rank x ≤ rank y := by
  have hlabel (e : β) (he : e ∈ entries) : ∃ x, decode e = some x ∧ label x = key e := by
    obtain ⟨x, -, hx⟩ := hdecode e he
    exact ⟨x, hx⟩
  refine mergeSort_congr (Finite.nodup_filterMap honce hlabel) hnodup (fun x => ?_) hrank
  rw [List.mem_filterMap]
  constructor
  · rintro ⟨e, he, hx⟩
    obtain ⟨y, hy, hdecoded, -⟩ := hdecode e he
    exact Option.some.inj (hdecoded.symm.trans hx) ▸ hy
  · exact hcode x

namespace Kernel

variable {k : Kernel}

/-- A prefix is read back from its key. -/
theorem readPrefixKey_prefixKey (p : Prefix) : readPrefixKey (prefixKey p) = .ok p := by
  have hlength : (Bytes.ofNat 4 p.length).length = 4 := Bytes.length_ofNat 4 p.length
  have hread : Bytes.toNat (Bytes.ofNat 4 p.length) = p.length :=
    Bytes.toNat_ofNat 4 p.length (by have := p.length.isLt; omega)
  have htake : (prefixKey p).take 4 = Bytes.ofNat 4 p.length := List.take_left' hlength
  have hdrop : (prefixKey p).drop 4 = Bytes.ofAddress p.network := List.drop_left' hlength
  have hof : Prefix.of? p.network p.length = some p := by
    rw [Prefix.of?, dif_pos p.length.isLt]
    exact congrArg some (Prefix.around_network p)
  simp only [readPrefixKey, htake, hdrop, hread, Bytes.toAddress_ofAddress, hof]

/-- Different prefixes have different keys. -/
theorem prefixKey_injective : Function.Injective prefixKey := by
  intro p q h
  have hread := readPrefixKey_prefixKey p
  rw [h, readPrefixKey_prefixKey] at hread
  exact (Except.ok.inj hread).symm

/-- A rule is read back from its source and its rate. -/
theorem rateRule?_rateValue (source : Address) (rate : Rate) :
    rateRule? (Bytes.ofAddress source, rateValue rate) = some ⟨source, rate⟩ := by
  have hlength : (Bytes.ofNat 4 rate.perSecond.toNat).length = 4 := Bytes.length_ofNat 4 _
  have hlt : rate.perSecond.toNat < UInt32.size := rate.perSecond.toNat_lt
  have hpos : 0 < rate.perSecond.toNat := UInt32.lt_iff_toNat_lt.1 rate.positive
  have htake : (rateValue rate).take 4 = Bytes.ofNat 4 rate.perSecond.toNat := by
    rw [rateValue, List.append_assoc]
    exact List.take_left' hlength
  have hread : Bytes.toNat (Bytes.ofNat 4 rate.perSecond.toNat) = rate.perSecond.toNat :=
    Bytes.toNat_ofNat 4 _ hlt
  have hof : Rate.of? rate.perSecond.toNat = some rate := by
    rw [Rate.of?, dif_pos ⟨hpos, hlt⟩]
    rfl
  simp only [rateRule?, htake, hread, hof, Bytes.toAddress_ofAddress, Option.map_some]

/-- What the blacklist says of prefixes when those of a set are blocked. -/
def blacklistContent (blocked : Finset Prefix) (p : Prefix) : Option Bytes :=
  (Finite.presence blocked p).map fun _ => blockedMark

/-- What the rate limits say of sources that have the rates of a map. -/
def rateContent (rates : Finmap fun _ : Address => Rate) (source : Address) : Option Bytes :=
  (rates.lookup source).map rateValue

/-- Something is said of the blocked prefixes. -/
theorem mem_iff_blacklistContent {blocked : Finset Prefix} {p : Prefix} :
    p ∈ blocked ↔ (blacklistContent blocked p).isSome := by
  rw [blacklistContent, Option.isSome_map, Finite.isSome_presence]

/-- One prefix more is said to be blocked. -/
theorem blacklistContent_insert (blocked : Finset Prefix) (p : Prefix) :
    blacklistContent (insert p blocked) =
      Function.update (blacklistContent blocked) p (some blockedMark) := by
  funext q
  rw [blacklistContent, Finite.presence_insert, Function.update_apply, Function.update_apply]
  split
  next => rfl
  next => rfl

/-- One prefix less is said to be blocked. -/
theorem blacklistContent_erase (blocked : Finset Prefix) (p : Prefix) :
    blacklistContent (blocked.erase p) = Function.update (blacklistContent blocked) p none := by
  funext q
  rw [blacklistContent, Finite.presence_erase, Function.update_apply, Function.update_apply]
  split
  next => rfl
  next => rfl

/-- One more rate is said to be in force. -/
theorem rateContent_insert (rates : Finmap fun _ : Address => Rate) (source : Address)
    (rate : Rate) :
    rateContent (rates.insert source rate) =
      Function.update (rateContent rates) source (some (rateValue rate)) :=
  Finite.map_lookup_insert rates source rate rateValue

/-- One rate less is said to be in force. -/
theorem rateContent_erase (rates : Finmap fun _ : Address => Rate) (source : Address) :
    rateContent (rates.erase source) = Function.update (rateContent rates) source none :=
  Finite.map_lookup_erase rates source rateValue

/-- The maps of the kernel enforce a ruleset, and no call is set to fail. -/
structure Enforces {capacity : Nat} (k : Kernel) (r : Ruleset capacity) : Prop where
  /-- No call is set to fail. -/
  faults : k.faults = []
  /-- The keys of the blocked prefixes are filed. -/
  blacklist : k.Files capacity .blacklist prefixKey (blacklistContent r.blocked)
  /-- The rates are filed. -/
  rates : k.Files capacity .rateLimits Bytes.ofAddress (rateContent r.rates)
  /-- The generation number is in its cell. -/
  generation : ∃ m, k.map? .generation = some m ∧
    m.shape = MapName.generation.shape capacity ∧
    m.lookup? (Bytes.ofNat 4 0) = some (Bytes.ofNat 8 r.generation.toNat)

/-- The maps were declared with room for so many entries and hold nothing yet, and no call is set to
fail. -/
structure Fresh (capacity : Nat) (k : Kernel) : Prop where
  /-- No call is set to fail. -/
  faults : k.faults = []
  /-- The blacklist is new. -/
  blacklist : k.map? .blacklist = some (.create (MapName.blacklist.shape capacity))
  /-- The rate limits are new. -/
  rateLimits : k.map? .rateLimits = some (.create (MapName.rateLimits.shape capacity))
  /-- The generation number is new. -/
  generation : k.map? .generation = some (.create (MapName.generation.shape capacity))

/-- The blacklist is no array. -/
theorem trie_ne_array : MapKind.trie ≠ .array := by decide

/-- The rate limits are no array. -/
theorem hash_ne_array : MapKind.hash ≠ .array := by decide

/-- New maps enforce nothing. -/
theorem Fresh.enforces {capacity : Nat} (h : k.Fresh capacity) :
    k.Enforces ({} : Ruleset capacity) where
  faults := h.faults
  blacklist := ⟨_, h.blacklist, rfl, KernelMap.Files.create _ prefixKey⟩
  rates := ⟨_, h.rateLimits, rfl, KernelMap.Files.create _ Bytes.ofAddress⟩
  generation := ⟨_, h.generation, rfl, rfl⟩

namespace Enforces

variable {capacity : Nat} {r : Ruleset capacity} {k' : Kernel}

/-- A changed blacklist leaves the rest as it was. -/
theorem with_blacklist (h : k.Enforces r) (hk' : ChangesOnly .blacklist k k')
    {blocked : Finset Prefix}
    (hfiles : k'.Files capacity .blacklist prefixKey (blacklistContent blocked)) :
    k'.Enforces ({ r with blocked := blocked } : Ruleset capacity) := by
  obtain ⟨m, hm, hcell⟩ := h.generation
  exact ⟨hk'.faults.trans h.faults, hfiles, h.rates.of_changesOnly hk' (by decide), m,
    (hk'.others _ (by decide)).trans hm, hcell⟩

/-- Changed rates leave the rest as it was. -/
theorem with_rates (h : k.Enforces r) (hk' : ChangesOnly .rateLimits k k')
    {rates : Finmap fun _ : Address => Rate}
    (hfiles : k'.Files capacity .rateLimits Bytes.ofAddress (rateContent rates)) :
    k'.Enforces ({ r with rates := rates } : Ruleset capacity) := by
  obtain ⟨m, hm, hcell⟩ := h.generation
  exact ⟨hk'.faults.trans h.faults, h.blacklist.of_changesOnly hk' (by decide), hfiles, m,
    (hk'.others _ (by decide)).trans hm, hcell⟩

/-- The generation number is set. -/
theorem writeCell (h : k.Enforces r) (generation : UInt64) :
    ∃ k', k.writeCell .generation 0 generation = (.ok (), k') ∧ ChangesOnly .generation k k' ∧
      ∃ m, k'.map? .generation = some m ∧ m.shape = MapName.generation.shape capacity ∧
        m.lookup? (Bytes.ofNat 4 0) = some (Bytes.ofNat 8 generation.toNat) := by
  obtain ⟨m, hm, hshape, hcell⟩ := h.generation
  have hindex : k.checkIndex .generation 0 = .ok () := by
    simp only [checkIndex, hm, hshape]
    rfl
  let m' := m.store (Bytes.ofNat 4 0) (Bytes.ofNat 8 generation.toNat)
  have hupdate : m.update (Bytes.ofNat 4 0) (Bytes.ofNat 8 generation.toNat) = .ok m' := by
    rw [KernelMap.update, hcell, Option.isSome_some, if_pos rfl]
  refine ⟨k.setMap .generation m', ?_, .setMap .generation k m', m', map?_setMap_self hm m', hshape,
    KernelMap.lookup?_store m _ _⟩
  simp only [Kernel.writeCell, hindex, Kernel.update, changeMap_eq h.faults hm, hupdate]

/-- What the ruleset does not refuse takes effect in the kernel. -/
theorem perform_of_refusal?_eq_none (h : k.Enforces r) {m : Mutation}
    (hm : r.refusal? m = none) :
    ∃ k', Store.perform m k = (.ok (), k') ∧ k'.Enforces (r.obey m) := by
  cases m with
  | block p =>
    have hroom : p ∈ r.blocked ∨ r.blocked.card < capacity := by
      by_contra hfull
      simp [Ruleset.refusal?, hfull] at hm
    obtain ⟨k', hupdate, hk', hfiles⟩ := h.blacklist.update_of_room h.faults trie_ne_array
      prefixKey_injective (fun _ => mem_iff_blacklistContent) hroom blockedMark
    rw [← blacklistContent_insert] at hfiles
    exact ⟨k', congrArg (onPart _) hupdate, h.with_blacklist hk' hfiles⟩
  | unblock p =>
    obtain ⟨k', hdiscard, hk', hfiles⟩ := h.blacklist.discard h.faults trie_ne_array
      prefixKey_injective p
    rw [← blacklistContent_erase] at hfiles
    exact ⟨k', congrArg (onPart _) hdiscard, h.with_blacklist hk' hfiles⟩
  | limit rule =>
    have hroom : rule.source ∈ r.rates.keys ∨ r.rates.keys.card < capacity := by
      by_contra hfull
      rw [Finmap.mem_keys] at hfull
      simp [Ruleset.refusal?, hfull] at hm
    obtain ⟨k', hupdate, hk', hfiles⟩ := h.rates.update_of_room h.faults hash_ne_array
      Bytes.ofAddress_injective (fun _ => Finite.mem_keys_iff_isSome_map rateValue) hroom
      (rateValue rule.rate)
    rw [← rateContent_insert] at hfiles
    exact ⟨k', congrArg (onPart _) hupdate, h.with_rates hk' hfiles⟩
  | unlimit source =>
    obtain ⟨k', hdiscard, hk', hfiles⟩ := h.rates.discard h.faults hash_ne_array
      Bytes.ofAddress_injective source
    rw [← rateContent_erase] at hfiles
    exact ⟨k', congrArg (onPart _) hdiscard, h.with_rates hk' hfiles⟩
  | stamp generation =>
    obtain ⟨k', hwrite, hk', hcell⟩ := h.writeCell generation
    exact ⟨k', congrArg (onPart _) hwrite, hk'.faults.trans h.faults,
      h.blacklist.of_changesOnly hk' (by decide), h.rates.of_changesOnly hk' (by decide), hcell⟩

/-- What the ruleset refuses, the kernel refuses, and nothing changes. -/
theorem perform_of_refusal?_eq_some (h : k.Enforces r) {m : Mutation} {e : StoreError}
    (hm : r.refusal? m = some e) : ∃ e', Store.perform m k = (.error e', k) := by
  cases m with
  | block p =>
    rw [Ruleset.refusal?] at hm
    split at hm
    next => cases hm
    next hfull =>
      obtain ⟨hp, hcard⟩ := not_or.1 hfull
      obtain ⟨e', hupdate⟩ := h.blacklist.update_of_full h.faults trie_ne_array prefixKey_injective
        (fun _ => mem_iff_blacklistContent) hp (Nat.le_of_not_lt hcard) blockedMark
      exact ⟨_, congrArg (onPart _) hupdate⟩
  | limit rule =>
    rw [Ruleset.refusal?] at hm
    split at hm
    next => cases hm
    next hfull =>
      obtain ⟨hsource, hcard⟩ := not_or.1 hfull
      rw [← Finmap.mem_keys] at hsource
      obtain ⟨e', hupdate⟩ := h.rates.update_of_full h.faults hash_ne_array
        Bytes.ofAddress_injective (fun _ => Finite.mem_keys_iff_isSome_map rateValue) hsource
        (Nat.le_of_not_lt hcard) (rateValue rule.rate)
      exact ⟨_, congrArg (onPart _) hupdate⟩
  | unblock p => cases hm
  | unlimit source => cases hm
  | stamp generation => cases hm

/-- The blocked prefixes are read back in their order. -/
theorem blacklist_eq (h : k.Enforces r) {xs : List Prefix} (hnodup : xs.Nodup)
    (hmem : ∀ p, p ∈ xs ↔ p ∈ r.blocked) :
    k.blacklist = .ok (xs.mergeSort fun p q => p.rank ≤ q.rank) := by
  obtain ⟨m, hm, hshape, hfiles⟩ := h.blacklist
  have hperm : (k.listing.arrange m.keys).Perm m.filed.keys := by
    rw [KernelMap.keys_of_kind_ne (hshape ▸ trie_ne_array)]
    exact k.listing.perm _
  have hkey (key : Bytes) : key ∈ k.listing.arrange m.keys ↔ ∃ p ∈ xs, prefixKey p = key := by
    rw [hperm.mem_iff, hfiles.mem_keys_iff]
    refine exists_congr fun p => ?_
    rw [hmem, mem_iff_blacklistContent, and_comm]
  have honce : ((k.listing.arrange m.keys).map id).Nodup := by
    rw [List.map_id]
    exact hperm.nodup_iff.2 Std.TreeMap.nodup_keys
  let decode (key : Bytes) : Option Prefix := (readPrefixKey key).toOption
  have hdecode (p : Prefix) : decode (prefixKey p) = some p :=
    congrArg Except.toOption (readPrefixKey_prefixKey p)
  have hrank (p : Prefix) (_ : p ∈ xs) (q : Prefix) (_ : q ∈ xs) (hr : p.rank = q.rank) : p = q :=
    Prefix.rank_injective hr
  have hentry (key : Bytes) (hmem' : key ∈ k.listing.arrange m.keys) :
      ∃ p ∈ xs, decode key = some p ∧ prefixKey p = id key := by
    obtain ⟨p, hp, rfl⟩ := (hkey key).1 hmem'
    exact ⟨p, hp, hdecode p, rfl⟩
  have hsorted := Roster.mergeSort_filterMap decode honce hnodup hrank hentry
    fun p hp => ⟨prefixKey p, (hkey _).2 ⟨p, hp, rfl⟩, hdecode p⟩
  rw [Kernel.blacklist, keys_eq h.faults hm]
  exact congrArg Except.ok hsorted

/-- The rules are read back in the order of their sources. -/
theorem rateRules_eq (h : k.Enforces r) {xs : List RateRule} (hnodup : xs.Nodup)
    (hmem : ∀ rule, rule ∈ xs ↔ r.rates.lookup rule.source = some rule.rate) :
    k.rateRules = .ok (xs.mergeSort fun r s => r.rank ≤ s.rank) := by
  obtain ⟨m, hm, hshape, hfiles⟩ := h.rates
  obtain ⟨entries, hentries, honce, hfiled⟩ :=
    exists_entries h.faults hm (hshape ▸ hash_ne_array)
  have hentry (key value : Bytes) : (key, value) ∈ entries ↔
      ∃ rule ∈ xs, Bytes.ofAddress rule.source = key ∧ rateValue rule.rate = value := by
    rw [hfiled, hfiles.getElem?_eq_some_iff]
    simp only [rateContent, Option.map_eq_some_iff]
    constructor
    · rintro ⟨source, hkey, rate, hrate, hvalue⟩
      exact ⟨⟨source, rate⟩, (hmem _).2 hrate, hkey, hvalue⟩
    · rintro ⟨rule, hrule, hkey, hvalue⟩
      exact ⟨rule.source, hkey, rule.rate, (hmem rule).1 hrule, hvalue⟩
  have hrank (rule : RateRule) (hrule : rule ∈ xs) (other : RateRule) (hother : other ∈ xs)
      (hr : rule.rank = other.rank) : rule = other :=
    RateRule.eq_of_lookup ((hmem _).1 hrule) ((hmem _).1 hother) hr
  have hdecode (e : Bytes × Bytes) (he : e ∈ entries) :
      ∃ rule ∈ xs, rateRule? e = some rule ∧ Bytes.ofAddress rule.source = e.1 := by
    obtain ⟨rule, hrule, hkey, hvalue⟩ := (hentry e.1 e.2).1 he
    have hread := rateRule?_rateValue rule.source rule.rate
    rw [hkey, hvalue] at hread
    exact ⟨rule, hrule, hread, hkey⟩
  have hsorted := Roster.mergeSort_filterMap rateRule? honce hnodup hrank hdecode
    fun rule hrule => ⟨(_, _), (hentry _ _).2 ⟨rule, hrule, rfl, rfl⟩,
      rateRule?_rateValue rule.source rule.rate⟩
  rw [Kernel.rateRules, hentries]
  exact congrArg Except.ok hsorted

/-- The generation number is read back. -/
theorem generation_eq (h : k.Enforces r) : Kernel.generation k = .ok r.generation := by
  obtain ⟨m, hm, hshape, hcell⟩ := h.generation
  have hindex : k.checkIndex .generation 0 = .ok () := by
    simp only [checkIndex, hm, hshape]
    rfl
  have hread : Bytes.toNat (Bytes.ofNat 8 r.generation.toNat) = r.generation.toNat :=
    Bytes.toNat_ofNat 8 _ r.generation.toNat_lt
  have hvalue : k.readCell .generation 0 = .ok r.generation.toNat := by
    rw [readCell, hindex, lookup_eq h.faults hm hcell]
    exact congrArg Except.ok hread
  rw [Kernel.generation, hvalue, Except.map, UInt64.ofNat_toNat]
  rfl

end Enforces
end Kernel
end SourceFilter
