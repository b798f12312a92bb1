import SourceFilter.Reconcile.Book
import SourceFilter.Proofs.Enforcement

/-!
# Books and what is in force

A book mirrors a ruleset when it lists the same prefixes and rules, and it tracks tables when it
mirrors what they enforce. Then the book alone tells whether a change is refused: when the change
adds an entry and the book is full. A change that takes effect is learnt, a refused one changes
nothing, so the book goes on tracking the tables in either case.
-/

namespace SourceFilter

/-- A blacklist has an item of the rank of a prefix when it has the prefix. -/
theorem Prefix.has_rank_iff {blacklist : Blacklist} {p : Prefix} :
    blacklist.has p.rank ↔ p ∈ blacklist.items := by
  rw [Roster.has_iff]
  constructor
  · rintro ⟨q, hq, hrank⟩
    rwa [← Prefix.rank_injective hrank]
  · intro hp
    exact ⟨p, hp, rfl⟩

/-- Rules have an item of the rank of a source when one of them is about the source. -/
theorem RateRule.has_source_iff {rules : RateRules} {source : Address} :
    rules.has source.toNat ↔ source ∈ rules.items.map RateRule.source := by
  rw [Roster.has_iff, List.mem_map]
  exact exists_congr fun rule => and_congr_right fun _ => BitVec.toNat_inj

namespace Book

variable {capacity : Nat} {book : Book} {r : Ruleset capacity} {t : Tables capacity}
  {change : Change}

/-- The book lists what a ruleset blocks and limits. -/
structure Mirrors (book : Book) (r : Ruleset capacity) : Prop where
  /-- The blacklist lists the blocked prefixes. -/
  blacklist : ∀ p, p ∈ book.blacklist.items ↔ p ∈ r.blocked
  /-- The rules are those of the sources with a rate. -/
  rateRules : ∀ rule, rule ∈ book.rateRules.items ↔ r.rates.lookup rule.source = some rule.rate

/-- There is room for what a change adds, or it adds nothing. -/
def Admits (capacity : Nat) (book : Book) : Change → Prop
  | .block p => book.blacklist.has p.rank ∨ book.blacklist.size < capacity
  | .limit rule | .revise rule => book.rateRules.has rule.rank ∨ book.rateRules.size < capacity
  | .unblock _ | .unlimit _ | .stamp _ => True

namespace Mirrors

/-- Nothing is in force at first. -/
theorem empty : ({} : Book).Mirrors ({} : Ruleset capacity) where
  blacklist p := by
    constructor
    · intro hp
      exact absurd hp Roster.not_mem_empty
    · intro hp
      exact absurd hp (Finset.notMem_empty p)
  rateRules rule := by
    constructor
    · intro hrule
      exact absurd hrule Roster.not_mem_empty
    · intro hrule
      rw [Finmap.lookup_empty] at hrule
      cases hrule

/-- The book has a prefix when it is blocked. -/
theorem has_rank_iff (h : book.Mirrors r) (p : Prefix) :
    book.blacklist.has p.rank ↔ p ∈ r.blocked := by
  rw [Prefix.has_rank_iff, h.blacklist]

/-- The book has a rule for the sources with a rate. -/
theorem has_source_iff (h : book.Mirrors r) (source : Address) :
    book.rateRules.has source.toNat ↔ source ∈ r.rates := by
  rw [RateRule.has_source_iff, List.mem_map, ← Finmap.lookup_isSome, Option.isSome_iff_exists]
  constructor
  · rintro ⟨rule, hrule, rfl⟩
    exact ⟨rule.rate, (h.rateRules rule).1 hrule⟩
  · rintro ⟨rate, hrate⟩
    exact ⟨⟨source, rate⟩, (h.rateRules _).2 hrate, rfl⟩

/-- The book has as many prefixes as are blocked. -/
theorem card_blocked (h : book.Mirrors r) : r.blocked.card = book.blacklist.size := by
  have hblocked : r.blocked = book.blacklist.items.toFinset := by
    ext p
    rw [List.mem_toFinset, h.blacklist]
  rw [hblocked, List.toFinset_card_of_nodup book.blacklist.nodup_items, Roster.size]

/-- The book has as many rules as there are sources with a rate. -/
theorem card_rates (h : book.Mirrors r) : r.rates.keys.card = book.rateRules.size := by
  have hnodup : (book.rateRules.items.map RateRule.source).Nodup := by
    refine book.rateRules.nodup_items.map_on fun x hx y hy hsource => ?_
    exact Roster.eq_of_rank_eq hx hy (congrArg BitVec.toNat hsource)
  have hkeys : r.rates.keys = (book.rateRules.items.map RateRule.source).toFinset := by
    ext source
    rw [Finmap.mem_keys, ← h.has_source_iff, RateRule.has_source_iff, List.mem_toFinset]
  rw [hkeys, List.toFinset_card_of_nodup hnodup, List.length_map, Roster.size]

/-- A change is refused when the book has no room for it. -/
theorem refusal?_eq_none_iff (h : book.Mirrors r) :
    r.refusal? change.mutation = none ↔ book.Admits capacity change := by
  cases change with
  | block p =>
    simp only [Change.mutation, Ruleset.refusal?, Admits, h.has_rank_iff, h.card_blocked,
      ite_eq_left_iff, reduceCtorEq, imp_false, not_not]
  | limit rule =>
    simp only [Change.mutation, Ruleset.refusal?, Admits, RateRule.rank, h.has_source_iff,
      h.card_rates, ite_eq_left_iff, reduceCtorEq, imp_false, not_not]
  | revise rule =>
    simp only [Change.mutation, Ruleset.refusal?, Admits, RateRule.rank, h.has_source_iff,
      h.card_rates, ite_eq_left_iff, reduceCtorEq, imp_false, not_not]
  | unblock p => simp only [Change.mutation, Ruleset.refusal?, Admits]
  | unlimit rule => simp only [Change.mutation, Ruleset.refusal?, Admits]
  | stamp generation => simp only [Change.mutation, Ruleset.refusal?, Admits]

/-- A rule that is set takes the place of the rule of its source. -/
theorem insert_rule (h : book.Mirrors r) (rule rule' : RateRule) :
    rule' ∈ (book.rateRules.insert rule).items ↔
      (r.rates.insert rule.source rule.rate).lookup rule'.source = some rule'.rate := by
  rw [Roster.mem_insert, h.rateRules]
  by_cases hsource : rule'.source = rule.source
  · have hrank : rule'.rank = rule.rank := congrArg BitVec.toNat hsource
    rw [hsource, Finmap.lookup_insert, Option.some_inj]
    constructor
    · rintro (rfl | ⟨-, hne⟩)
      · rfl
      · exact absurd hrank hne
    · intro hrate
      obtain ⟨source, rate⟩ := rule
      obtain ⟨source', rate'⟩ := rule'
      simp only at hsource hrate
      rw [hsource, hrate]
      exact .inl rfl
  · have hrank : rule'.rank ≠ rule.rank := fun heq => hsource (BitVec.eq_of_toNat_eq heq)
    rw [Finmap.lookup_insert_of_ne _ hsource]
    constructor
    · rintro (rfl | ⟨hlookup, -⟩)
      · exact absurd rfl hsource
      · exact hlookup
    · intro hlookup
      exact .inr ⟨hlookup, hrank⟩

/-- The book after a change mirrors the ruleset after its mutation. -/
theorem learn (h : book.Mirrors r) (change : Change) :
    (book.learn change).Mirrors (r.obey change.mutation) := by
  cases change with
  | unblock p =>
    refine ⟨fun q => ?_, h.rateRules⟩
    simp only [Book.learn, Change.mutation, Ruleset.obey]
    rw [Roster.mem_erase, Finset.mem_erase, h.blacklist, and_comm]
    exact and_congr_left fun _ => not_congr ⟨Prefix.rank_injective, congrArg Prefix.rank⟩
  | block p =>
    refine ⟨fun q => ?_, h.rateRules⟩
    simp only [Book.learn, Change.mutation, Ruleset.obey]
    rw [Roster.mem_insert, Finset.mem_insert, h.blacklist]
    constructor
    · rintro (rfl | ⟨hq, -⟩)
      · exact .inl rfl
      · exact .inr hq
    · rintro (rfl | hq)
      · exact .inl rfl
      · by_cases hrank : q.rank = p.rank
        · exact .inl (Prefix.rank_injective hrank)
        · exact .inr ⟨hq, hrank⟩
  | unlimit rule =>
    refine ⟨h.blacklist, fun rule' => ?_⟩
    simp only [Book.learn, Change.mutation, Ruleset.obey]
    rw [Roster.mem_erase, h.rateRules]
    by_cases hsource : rule'.source = rule.source
    · have hrank : rule'.rank = rule.rank := congrArg BitVec.toNat hsource
      rw [hsource, Finmap.lookup_erase]
      simp [hrank]
    · have hrank : rule'.rank ≠ rule.rank := fun heq => hsource (BitVec.eq_of_toNat_eq heq)
      rw [Finmap.lookup_erase_ne hsource]
      exact and_iff_left hrank
  | limit rule => exact ⟨h.blacklist, h.insert_rule rule⟩
  | revise rule => exact ⟨h.blacklist, h.insert_rule rule⟩
  | stamp generation => exact ⟨h.blacklist, h.rateRules⟩

end Mirrors

/-- The book mirrors what the tables enforce. -/
def Tracks (book : Book) (t : Tables capacity) : Prop :=
  ∃ r : Ruleset capacity, t.Enforces r ∧ book.Mirrors r

namespace Tracks

/-- The empty book tracks tables without entries. -/
theorem empty : ({} : Book).Tracks (Tables.empty : Tables capacity) :=
  ⟨{}, Tables.Enforces.empty, Mirrors.empty⟩

/-- The blacklist of the tables is that of the book. -/
theorem blacklist_eq (h : book.Tracks t) : t.blacklist = book.blacklist.items := by
  obtain ⟨r, henforces, hmirrors⟩ := h
  exact henforces.blocks.blacklist_eq hmirrors.blacklist

/-- The rules of the tables are those of the book. -/
theorem rateRules_eq (h : book.Tracks t) : t.rateRules = book.rateRules.items := by
  obtain ⟨r, henforces, hmirrors⟩ := h
  exact henforces.limits.rateRules_eq hmirrors.rateRules

/-- A change that there is room for takes effect and is learnt. -/
theorem perform_of_admits (h : book.Tracks t) (ha : book.Admits capacity change) :
    ∃ t', Store.perform change.mutation t = (.ok (), t') ∧ (book.learn change).Tracks t' := by
  obtain ⟨r, henforces, hmirrors⟩ := h
  obtain ⟨t', hperform, henforces'⟩ :=
    henforces.perform_of_refusal?_eq_none (hmirrors.refusal?_eq_none_iff.2 ha)
  exact ⟨t', hperform, r.obey change.mutation, henforces', hmirrors.learn change⟩

/-- A change that there is no room for is refused and changes nothing. -/
theorem perform_of_not_admits (h : book.Tracks t) (ha : ¬ book.Admits capacity change) :
    ∃ e, Store.perform change.mutation t = (.error e, t) := by
  obtain ⟨r, henforces, hmirrors⟩ := h
  rw [← hmirrors.refusal?_eq_none_iff, ← ne_eq, Option.ne_none_iff_exists'] at ha
  obtain ⟨e, he⟩ := ha
  exact ⟨e, henforces.perform_of_refusal?_eq_some he⟩

end Tracks

end Book

end SourceFilter
