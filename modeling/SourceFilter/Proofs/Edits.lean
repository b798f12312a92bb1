import SourceFilter.Proofs.Convergence
import SourceFilter.Proofs.Mixture

/-!
# Edits of rosters

The difference of two rosters is carried out as edits of the old one: the removed items are erased,
then the added and the changed ones are inserted. Each edit settles its rank, and the ranks of the
difference are exactly those at which the rosters disagree, so all edits together give the new
roster. A rank that no edit is about stays as it was, so none of the edits can be left out, and no
other edits do with fewer.
-/

namespace SourceFilter

/-- One change to a roster. -/
inductive Edit (α : Type) where
  /-- Takes out the item of the same rank. -/
  | erase (x : α)
  /-- Puts in an item, in the stead of the one of the same rank. -/
  | insert (x : α)
  deriving DecidableEq

/-- The rank that an edit is about. -/
def Edit.rank {α : Type} (rank : α → Nat) : Edit α → Nat
  | erase x => rank x
  | insert x => rank x

namespace Difference

variable {α : Type}

/-- The edits that carry out a difference: what is removed goes first. -/
def edits (d : Difference α) : List (Edit α) :=
  d.removed.map .erase ++ d.added.map .insert ++ d.changed.map .insert

/-- The edits are about the ranks of the difference. -/
theorem map_rank_edits (rank : α → Nat) (d : Difference α) :
    d.edits.map (Edit.rank rank) = d.ranks rank := by
  simp only [edits, ranks, List.map_append, List.map_map, Function.comp_def, Edit.rank]

end Difference

namespace Roster

variable {α : Type} {rank : α → Nat} {r old new : Roster α rank} {settled : List Nat}
  {edit : Edit α} {edits : List (Edit α)} {n : Nat}

/-- The roster after an edit. -/
def apply (r : Roster α rank) : Edit α → Roster α rank
  | .erase x => r.erase (rank x)
  | .insert x => r.insert x

/-- The roster after some edits, one after the other. -/
def applyAll (r : Roster α rank) (edits : List (Edit α)) : Roster α rank :=
  edits.foldl Roster.apply r

/-- An edit leaves the other ranks alone. -/
theorem find?_apply_of_ne (r : Roster α rank) (hn : edit.rank rank ≠ n) :
    (r.apply edit).find? n = r.find? n := by
  cases edit with
  | erase x =>
    rw [Edit.rank] at hn
    rw [Roster.apply, find?_erase, if_neg (Ne.symm hn)]
  | insert x =>
    rw [Edit.rank] at hn
    rw [Roster.apply, find?_insert, if_neg hn]

/-- A rank that no edit is about stays as it was. -/
theorem find?_applyAll_of_notMem (r : Roster α rank) (hn : n ∉ edits.map (Edit.rank rank)) :
    (r.applyAll edits).find? n = r.find? n := by
  induction edits generalizing r with
  | nil => rfl
  | cons edit edits ih =>
    rw [List.map_cons, List.mem_cons, not_or] at hn
    exact (ih (r.apply edit) hn.2).trans (find?_apply_of_ne r (Ne.symm hn.1))

variable [DecidableEq α]

/-- An edit of the difference settles its rank. -/
theorem Mixes.apply (h : r.Mixes old new settled) (hedit : edit ∈ (old.difference new).edits) :
    (r.apply edit).Mixes old new (settled ++ [edit.rank rank]) := by
  simp only [Difference.edits, List.mem_append, List.mem_map] at hedit
  rcases hedit with (⟨x, hx, rfl⟩ | ⟨x, hx, rfl⟩) | ⟨x, hx, rfl⟩
  · exact h.erase (mem_removed_iff_find?.1 hx).2
  · exact h.insert (mem_added.1 hx).1
  · exact h.insert (mem_changed.1 hx).1

/-- Edits of the difference, in whatever order, settle their ranks. -/
theorem mixes_applyAll (hedits : ∀ edit ∈ edits, edit ∈ (old.difference new).edits) :
    (old.applyAll edits).Mixes old new (edits.map (Edit.rank rank)) := by
  induction edits using List.reverseRecOn with
  | nil => exact Mixes.start
  | append_singleton edits edit ih =>
    obtain ⟨hfirst, hlast⟩ := List.forall_mem_append.1 hedits
    rw [applyAll, List.foldl_concat, List.map_append]
    exact (ih hfirst).apply (hlast edit List.mem_cons_self)

/-- The edits of the difference lead from the old roster to the new one. -/
theorem applyAll_difference (old new : Roster α rank) :
    old.applyAll (old.difference new).edits = new := by
  have hmixes : (old.applyAll (old.difference new).edits).Mixes old new _ :=
    mixes_applyAll fun _ hedit => hedit
  refine eq_of_find? fun n => ?_
  rw [hmixes n, Difference.map_rank_edits]
  split
  next => rfl
  next hn => exact not_not.1 fun hne => hn (mem_ranks_difference.2 hne)

/-- Edits that lead to the new roster are about all ranks at which it differs from the old one. -/
theorem ranks_subset_of_applyAll_eq (h : old.applyAll edits = new) :
    (old.difference new).ranks rank ⊆ edits.map (Edit.rank rank) := by
  intro n hn
  by_contra hnone
  have hsame := find?_applyAll_of_notMem old hnone
  rw [h] at hsame
  exact mem_ranks_difference.1 hn hsame.symm

/-- No fewer edits lead to the new roster than those of the difference. -/
theorem length_edits_le_of_applyAll_eq (h : old.applyAll edits = new) :
    (old.difference new).edits.length ≤ edits.length := by
  have hranks := (nodup_ranks_difference old new).length_le_of_subset
    (ranks_subset_of_applyAll_eq h)
  rwa [← Difference.map_rank_edits, List.length_map, List.length_map] at hranks

/-- Edits that lead from one roster to another, and of which none is too many. -/
structure Minimal (old new : Roster α rank) (edits : List (Edit α)) : Prop where
  /-- The edits lead to the new roster. -/
  reaches : old.applyAll edits = new
  /-- No edit can be left out. -/
  whole : ∀ part, part.Sublist edits → old.applyAll part = new → part = edits
  /-- No other edits lead there with fewer. -/
  shortest : ∀ others, old.applyAll others = new → edits.length ≤ others.length

/-- The edits of the difference are minimal. -/
theorem minimal_difference (old new : Roster α rank) :
    Minimal old new (old.difference new).edits where
  reaches := applyAll_difference old new
  whole _ hpart hnew := hpart.eq_of_length_le (length_edits_le_of_applyAll_eq hnew)
  shortest _ hnew := length_edits_le_of_applyAll_eq hnew

/-- There is nothing to do exactly between equal rosters. -/
theorem isEmpty_difference_iff : (old.difference new).isEmpty = true ↔ old = new := by
  rw [← ranks_difference_eq_nil_iff, Difference.ranks]
  simp only [Difference.isEmpty, Bool.and_eq_true, List.isEmpty_iff, List.append_eq_nil_iff,
    List.map_eq_nil_iff]

end Roster

namespace RateRule

/-- The sources of some rules. -/
def sources (rules : List RateRule) : List Address := rules.map source

/-- Rules of one source are the same when they have the same number of packets per second. -/
theorem ne_iff_of_source_eq {rule other : RateRule} (h : rule.source = other.source) :
    rule ≠ other ↔ rule.rate.perSecond ≠ other.rate.perSecond := by
  obtain ⟨source, ⟨perSecond, positive⟩⟩ := rule
  obtain ⟨source', ⟨perSecond', positive'⟩⟩ := other
  simp only at h
  simp [h]

/-- Rules in the order of their ranks are in the order of their sources. -/
theorem pairwise_sources {rules : List RateRule} (h : rules.Pairwise fun x y => x.rank < y.rank) :
    (sources rules).Pairwise (· < ·) :=
  List.pairwise_map.2 (h.imp fun hlt => BitVec.lt_def.2 hlt)

/-- The ranks of a difference are the sources of its rules. -/
theorem ranks_eq (d : Difference RateRule) :
    d.ranks rank = (sources (d.removed ++ d.added ++ d.changed)).map BitVec.toNat := by
  simp only [Difference.ranks, sources, List.map_append, List.map_map]
  rfl

end RateRule

/-- Differences are exact and minimal. Between blacklists they list in ascending order what only the
old one has, to be removed, and what only the new one has, to be added. Between rate rules they list
in ascending order of sources the old rules of the sources that lose theirs, the new rules of those
that had none, and the new rules of those whose number of packets per second changes. These are all
sources on which the rules disagree, each of them once, and rules that are left alone have the
wanted interval already. The edits lead to the new roster, and no part of them does, nor do fewer
others; there are none exactly between equal rosters. -/
theorem differences_exact_and_minimal :
    (∀ old new : Blacklist,
      let d := old.difference new
      d.removed.Pairwise (fun p q => p.rank < q.rank) ∧
      d.added.Pairwise (fun p q => p.rank < q.rank) ∧ d.changed = [] ∧
      (∀ p, p ∈ d.removed ↔ p ∈ old.items ∧ p ∉ new.items) ∧
      (∀ p, p ∈ d.added ↔ p ∈ new.items ∧ p ∉ old.items) ∧
      (d.isEmpty = true ↔ old = new) ∧ Roster.Minimal old new d.edits) ∧
    ∀ old new : RateRules,
      let d := old.difference new
      let touched := RateRule.sources (d.removed ++ d.added ++ d.changed)
      (RateRule.sources d.removed).Pairwise (· < ·) ∧
      (RateRule.sources d.added).Pairwise (· < ·) ∧
      (RateRule.sources d.changed).Pairwise (· < ·) ∧ touched.Nodup ∧
      (∀ source, source ∈ touched ↔ old.find? source.toNat ≠ new.find? source.toNat) ∧
      (∀ rule, rule ∈ d.removed ↔
        rule ∈ old.items ∧ rule.source ∉ RateRule.sources new.items) ∧
      (∀ rule, rule ∈ d.added ↔
        rule ∈ new.items ∧ rule.source ∉ RateRule.sources old.items) ∧
      (∀ rule, rule ∈ d.changed ↔
        rule ∈ new.items ∧ ∃ former ∈ old.items, former.source = rule.source ∧
          former.rate.perSecond ≠ rule.rate.perSecond) ∧
      (∀ rule ∈ new.items, rule.source ∉ touched → ∃ former ∈ old.items,
        former.source = rule.source ∧ former.rate.interval = rule.rate.interval) ∧
      (d.isEmpty = true ↔ old = new) ∧ Roster.Minimal old new d.edits := by
  constructor
  · intro old new d
    obtain ⟨hremoved, hadded, -⟩ := Roster.ascending_difference old new
    refine ⟨hremoved, hadded, Book.changed_difference_blacklist old new, fun p => ?_, fun p => ?_,
      Roster.isEmpty_difference_iff, Roster.minimal_difference old new⟩
    · rw [Roster.mem_removed, Prefix.has_rank_iff]
    · rw [Roster.mem_added, Prefix.has_rank_iff]
  · intro old new d touched
    obtain ⟨hremoved, hadded, hchanged⟩ := Roster.ascending_difference old new
    have hranks : d.ranks RateRule.rank = touched.map BitVec.toNat := RateRule.ranks_eq d
    have htouched (source : Address) :
        source ∈ touched ↔ old.find? source.toNat ≠ new.find? source.toNat := by
      rw [← Roster.mem_ranks_difference, hranks, List.mem_map_of_injective Address.toNat_injective]
    refine ⟨RateRule.pairwise_sources hremoved, RateRule.pairwise_sources hadded,
      RateRule.pairwise_sources hchanged, ?_, htouched, fun rule => ?_, fun rule => ?_,
      fun rule => ?_, fun rule hrule hleft => ?_, Roster.isEmpty_difference_iff,
      Roster.minimal_difference old new⟩
    · exact List.Nodup.of_map BitVec.toNat (hranks ▸ Roster.nodup_ranks_difference old new)
    · rw [Roster.mem_removed, RateRule.rank, RateRule.has_source_iff, RateRule.sources]
    · rw [Roster.mem_added, RateRule.rank, RateRule.has_source_iff, RateRule.sources]
    · rw [Roster.mem_changed]
      refine and_congr_right fun _ => exists_congr fun former => and_congr_right fun _ => ?_
      constructor
      · rintro ⟨hrank, hne⟩
        have hsource : former.source = rule.source := BitVec.eq_of_toNat_eq hrank
        exact ⟨hsource, (RateRule.ne_iff_of_source_eq hsource).1 hne⟩
      · rintro ⟨hsource, hne⟩
        exact ⟨congrArg BitVec.toNat hsource, (RateRule.ne_iff_of_source_eq hsource).2 hne⟩
    · have hsame : old.find? rule.rank = new.find? rule.rank :=
        not_not.1 fun hne => hleft ((htouched rule.source).2 hne)
      have hold : rule ∈ old.items := by
        rw [Roster.mem_items_iff, hsame, ← Roster.mem_items_iff]
        exact hrule
      exact ⟨rule, hold, rfl, rfl⟩

/-- One rule goes, one comes and one gets another rate; none of the three edits can be left out. -/
theorem difference_of_three_rules_is_minimal :
    let rule (source : Address) (perSecond : UInt32) (h : 0 < perSecond) : RateRule :=
      ⟨source, perSecond, h⟩
    let old : RateRules := .ofList [rule 1 5 (by decide), rule 2 7 (by decide)]
    let new : RateRules := .ofList [rule 2 8 (by decide), rule 3 7 (by decide)]
    let edits : List (Edit RateRule) := [.erase (rule 1 5 (by decide)),
      .insert (rule 3 7 (by decide)), .insert (rule 2 8 (by decide))]
    (old.difference new).edits = edits ∧ edits.tail.Sublist edits ∧
      old.applyAll edits = new ∧ old.applyAll edits.tail ≠ new := by
  intro rule old new edits
  have hedits : (old.difference new).edits = edits := by decide
  have hpart : edits.tail.Sublist edits := List.tail_sublist edits
  obtain ⟨-, -, -, -, -, -, -, -, -, -, hminimal⟩ := differences_exact_and_minimal.2 old new
  rw [hedits] at hminimal
  refine ⟨hedits, hpart, hminimal.reaches, fun hnew => ?_⟩
  exact absurd (hminimal.whole edits.tail hpart hnew) (by decide)

end SourceFilter
