import SourceFilter.Proofs.Accounting

/-!
# The ranking of sources

Sources are ranked by their dropped packets, then by all their packets, then by their addresses, so
two sources never stand equal and a report lists them in the only order there is. It does not tell
in which order the records were read, hence neither where tables keep them nor which source came
first.
-/

namespace SourceFilter

namespace SourceTally

/-- A source stands above another one when more of its packets were dropped; or as many, and there
are more in all; or as many of both, and it has the lower address. -/
def Outranks (a b : SourceTally) : Prop :=
  b.tally.dropped < a.tally.dropped ∨ a.tally.dropped = b.tally.dropped ∧
    (b.tally.total < a.tally.total ∨ a.tally.total = b.tally.total ∧ a.source < b.source)

variable {a b : SourceTally}

/-- The ranking in terms of numbers. -/
theorem outranks_iff : a.Outranks b ↔
    b.tally.dropped.toNat < a.tally.dropped.toNat ∨
      a.tally.dropped.toNat = b.tally.dropped.toNat ∧ (b.tally.total < a.tally.total ∨
        a.tally.total = b.tally.total ∧ a.source.toNat < b.source.toNat) := by
  rw [Outranks, UInt64.lt_iff_toNat_lt, ← UInt64.toNat_inj, BitVec.lt_def]

/-- A source may stand before another one when that one does not outrank it. -/
theorem precedes_iff : a.precedes b = true ↔ ¬b.Outranks a := by
  rw [outranks_iff]
  simp only [precedes, Bool.or_eq_true, Bool.and_eq_true, decide_eq_true_iff, beq_iff_eq,
    ← UInt64.toNat_inj]
  omega

/-- Of different sources one outranks the other. -/
theorem Outranks.of_not (h : ¬b.Outranks a) (hne : a.source ≠ b.source) : a.Outranks b := by
  have hsource : a.source.toNat ≠ b.source.toNat := fun he => hne (BitVec.eq_of_toNat_eq he)
  rw [outranks_iff] at h ⊢
  omega

/-- Sources that may stand before each other have the same address. -/
theorem source_eq (hab : ¬b.Outranks a) (hba : ¬a.Outranks b) : a.source = b.source := by
  by_contra hne
  exact hba (Outranks.of_not hab hne)

/-- A source without packets outranks no other. -/
theorem total_pos_of_outranks (h : a.Outranks b) (hb : 0 < b.tally.total) : 0 < a.tally.total := by
  rw [outranks_iff] at h
  simp only [Tally.total] at h hb ⊢
  omega

/-- Sorting puts no source before one that outranks it. -/
theorem pairwise_mergeSort (tallies : List SourceTally) :
    (tallies.mergeSort precedes).Pairwise fun a b => ¬b.Outranks a := by
  have hsorted : (tallies.mergeSort precedes).Pairwise fun a b => a.precedes b = true := by
    apply List.pairwise_mergeSort
    · intro a b c hab hbc
      rw [precedes_iff, outranks_iff] at hab hbc ⊢
      omega
    · intro a b
      rw [Bool.or_eq_true, precedes_iff, precedes_iff, outranks_iff, outranks_iff]
      omega
  exact hsorted.imp precedes_iff.1

/-- A source has packets when some were dropped or some passed. -/
theorem total_pos_iff : 0 < a.tally.total ↔ 0 < a.tally.dropped ∨ 0 < a.tally.passed := by
  rw [UInt64.lt_iff_toNat_lt, UInt64.lt_iff_toNat_lt, UInt64.toNat_zero, Tally.total,
    UInt64.size]
  omega

end SourceTally

namespace Statistics

open SourceTally

variable {totals : Tally} {tallies others : List SourceTally} {a b : SourceTally} {n : Nat}

/-- The records of the sources with packets. -/
def counted (tallies : List SourceTally) : List SourceTally :=
  tallies.filter fun one => 0 < one.tally.dropped ∨ 0 < one.tally.passed

/-- A source is counted when it is recorded and has packets. -/
theorem mem_counted :
    a ∈ counted tallies ↔ a ∈ tallies ∧ (0 < a.tally.dropped ∨ 0 < a.tally.passed) := by
  rw [counted, List.mem_filter, decide_eq_true_iff]

/-- The entries are the records of the sources with packets. -/
theorem perm_entries (totals : Tally) (tallies : List SourceTally) :
    (ofTallies totals tallies).entries.Perm (counted tallies) := by
  have hcounted : (tallies.filter fun one => 0 < one.tally.total) = counted tallies :=
    List.filter_congr fun one _ => decide_eq_decide.2 total_pos_iff
  rw [ofTallies, hcounted]
  exact List.mergeSort_perm _ _

/-- No entry stands before one that outranks it. -/
theorem pairwise_entries (totals : Tally) (tallies : List SourceTally) :
    (ofTallies totals tallies).entries.Pairwise fun a b => ¬b.Outranks a :=
  SourceTally.pairwise_mergeSort _

/-- The records of different sources with packets are reported in one way. -/
theorem ofTallies_eq_of_perm (hperm : (counted others).Perm (counted tallies))
    (hsources : (tallies.map source).Nodup) :
    ofTallies totals others = ofTallies totals tallies := by
  have hentries : (ofTallies totals others).entries.Perm (ofTallies totals tallies).entries :=
    (perm_entries totals others).trans (hperm.trans (perm_entries totals tallies).symm)
  have hmem {one : SourceTally} (hone : one ∈ (ofTallies totals tallies).entries) :
      one ∈ tallies :=
    (mem_counted.1 ((perm_entries totals tallies).mem_iff.1 hone)).1
  have heq : (ofTallies totals others).entries = (ofTallies totals tallies).entries := by
    refine hentries.eq_of_pairwise (fun a b ha hb hab hba => ?_) (pairwise_entries totals others)
      (pairwise_entries totals tallies)
    exact List.inj_on_of_nodup_map hsources (hmem (hentries.mem_iff.1 ha)) (hmem hb)
      (source_eq hab hba)
  exact congrArg (Statistics.mk totals) heq

/-- The entries of different sources are ranked strictly. -/
theorem pairwise_outranks (totals : Tally) (hsources : (tallies.map source).Nodup) :
    (ofTallies totals tallies).entries.Pairwise Outranks := by
  have hnodup : ((ofTallies totals tallies).entries.map source).Nodup :=
    ((perm_entries totals tallies).map source).nodup_iff.2
      (hsources.sublist (List.filter_sublist.map source))
  have hdistinct := List.pairwise_map.1 hnodup
  exact (pairwise_entries totals tallies).imp₂ (fun _ _ h hne => Outranks.of_not h hne) hdistinct

/-- No other record outranks one of the first entries. -/
theorem not_outranks_of_mem_top (ha : a ∈ (ofTallies totals tallies).top n)
    (hb : b ∈ (ofTallies totals tallies).entries.drop n ∨
      b ∈ tallies ∧ b ∉ (ofTallies totals tallies).entries) : ¬b.Outranks a := by
  rcases hb with hb | ⟨hb, hout⟩
  · have hsplit := pairwise_entries totals tallies
    rw [← List.take_append_drop n (ofTallies totals tallies).entries] at hsplit
    exact (List.pairwise_append.1 hsplit).2.2 a ha b hb
  · intro houtranks
    have hcounted := (perm_entries totals tallies).mem_iff.1 (List.mem_of_mem_take ha)
    have hpos := total_pos_iff.2 (mem_counted.1 hcounted).2
    have hpos' := total_pos_iff.1 (total_pos_of_outranks houtranks hpos)
    exact hout ((perm_entries totals tallies).mem_iff.2 (mem_counted.2 ⟨hb, hpos'⟩))

/-- A store that answers is reported on. -/
theorem collect_eq {σ : Type} [Counter σ] {store : σ} (htotals : Counter.totals store = .ok totals)
    (hsources : Counter.sources store = .ok tallies) :
    collect store = .ok (ofTallies totals tallies) := by
  rw [collect, htotals, hsources]
  rfl

end Statistics

namespace Tables.Counts

variable {capacity capacity' : Nat} {t : Tables capacity} {t' : Tables capacity'}
  {seen seen' : List Sighting}

/-- Every source with a record is listed once, with its record. -/
theorem exists_listed (h : t.Counts seen) :
    ∃ listed, Counter.sources t = .ok listed ∧ (listed.map SourceTally.source).Nodup ∧
      ∀ one, one ∈ listed ↔ t.tallies.get? one.source.toNat = some one.tally := by
  obtain ⟨listed, hlisted, hperm⟩ := h.perm_sources
  obtain ⟨tallies, hrecords, hlookup⟩ := h.tallies
  have hsources := hperm.map SourceTally.source
  rw [List.map_map] at hsources
  refine ⟨listed, hlisted, ?_, fun one => ?_⟩
  · rw [hsources.nodup_iff, Function.comp_def, List.map_id']
    exact Sighting.nodup_kept capacity seen
  · have hget := hrecords.files.get?_number one.source
    rw [Option.map_id, id, hlookup] at hget
    rw [hget, Sighting.record?_eq_some_iff, hperm.mem_iff, List.mem_map]
    constructor
    · rintro ⟨a, ha, rfl⟩
      exact ⟨ha, rfl⟩
    · rintro ⟨ha, htally⟩
      exact ⟨one.source, ha, congrArg (SourceTally.mk one.source) htally⟩

/-- Tables that count the same for every source report the same. A source without a record counts as
one without packets. -/
theorem collect_congr (h : t.Counts seen) (h' : t'.Counts seen') (htotals : t'.totals = t.totals)
    (hsame : ∀ a : Address,
      (t'.tallies.get? a.toNat).getD {} = (t.tallies.get? a.toNat).getD {}) :
    Statistics.collect t' = Statistics.collect t := by
  obtain ⟨listed, hlisted, hnodup, hmem⟩ := h.exists_listed
  obtain ⟨listed', hlisted', hnodup', hmem'⟩ := h'.exists_listed
  -- a record with packets is what is found for its source, and nothing found has no packets
  have hfound (value : Option Tally) {one : SourceTally}
      (hone : 0 < one.tally.dropped ∨ 0 < one.tally.passed) :
      value = some one.tally ↔ value.getD {} = one.tally := by
    cases value with
    | some tally => exact Option.some_inj
    | none =>
      refine iff_of_false (Option.some_ne_none _).symm fun hnone => ?_
      rw [← hnone] at hone
      exact absurd hone (by decide)
  have hperm : (Statistics.counted listed').Perm (Statistics.counted listed) := by
    refine (List.perm_ext_iff_of_nodup (hnodup'.of_map.filter _) (hnodup.of_map.filter _)).2 ?_
    intro one
    rw [← Statistics.counted, ← Statistics.counted, Statistics.mem_counted, Statistics.mem_counted]
    refine and_congr_left fun hone => ?_
    rw [hmem, hmem', hfound _ hone, hfound _ hone, hsame]
  rw [Statistics.collect_eq rfl hlisted, Statistics.collect_eq rfl hlisted', htotals,
    Statistics.ofTallies_eq_of_perm hperm hnodup]

end Tables.Counts

/-- A report is a canonical ranking. It has the totals of its store and lists exactly the records
with packets; no record is outranked by one behind it, so none of the first ones is by any other.
The records of different sources are ranked strictly, and are reported alike in whatever order they
are read. So tables that count alike for every source report alike, whatever they took in. -/
theorem reports_rank_canonically :
    (∀ (σ : Type) [Counter σ] (store : σ) (totals : Tally) (tallies : List SourceTally),
      Counter.totals store = .ok totals → Counter.sources store = .ok tallies →
      ∃ report, Statistics.collect store = .ok report ∧ report.totals = totals ∧
        report.entries.Perm
          (tallies.filter fun one => 0 < one.tally.dropped ∨ 0 < one.tally.passed) ∧
        report.entries.Pairwise (fun a b => ¬b.Outranks a) ∧
        (∀ n, report.top n <+: report.entries ∧
          (report.top n).length = min n report.entries.length ∧
          ∀ a ∈ report.top n, ∀ b,
            b ∈ report.entries.drop n ∨ b ∈ tallies ∧ b ∉ report.entries → ¬b.Outranks a) ∧
        ((tallies.map SourceTally.source).Nodup →
          report.entries.Pairwise SourceTally.Outranks ∧
          ∀ (τ : Type) [Counter τ] (other : τ) (others : List SourceTally),
            Counter.totals other = .ok totals → Counter.sources other = .ok others →
            others.Perm tallies → Statistics.collect other = .ok report)) ∧
    ∀ (capacity capacity' : Nat) (inputs inputs' : List Input),
      let t := (runAll Service.take inputs { store := (Tables.empty : Tables capacity) }).2.store
      let t' := (runAll Service.take inputs' { store := (Tables.empty : Tables capacity') }).2.store
      t'.totals = t.totals →
      (∀ a : Address, (t'.tallies.get? a.toNat).getD {} = (t.tallies.get? a.toNat).getD {}) →
      Statistics.collect t' = Statistics.collect t := by
  constructor
  · intro σ _ store totals tallies htotals hsources
    refine ⟨Statistics.ofTallies totals tallies, Statistics.collect_eq htotals hsources, rfl,
      Statistics.perm_entries totals tallies, Statistics.pairwise_entries totals tallies,
      fun n => ⟨List.take_prefix n _, List.length_take, fun a ha b hb => ?_⟩,
      fun hdistinct => ⟨Statistics.pairwise_outranks totals hdistinct, ?_⟩⟩
    · exact Statistics.not_outranks_of_mem_top ha hb
    · intro τ _ other others htotals' hsources' hperm
      rw [Statistics.collect_eq htotals' hsources',
        Statistics.ofTallies_eq_of_perm (hperm.filter _) hdistinct]
  · intro capacity capacity' inputs inputs' t t' htotals hsame
    have hcounts : t.Counts _ := Service.counts_run Tables.Counts.empty inputs
    have hcounts' : t'.Counts _ := Service.counts_run Tables.Counts.empty inputs'
    exact hcounts.collect_congr hcounts' htotals hsame

/-- Two sources with one home come in either order, so the tables keep them in different slots and
list them in different orders. The reports are the same. -/
theorem reports_rank_in_either_order :
    let one : SourceTally := ⟨5, { passed := 1 }⟩
    let other : SourceTally := ⟨13, { passed := 1 }⟩
    let session (inputs : List Input) : Tables 4 :=
      (runAll Service.take inputs { store := .empty }).2.store
    let t := session [.move (.packet 5 0), .move (.packet 13 1)]
    let t' := session [.move (.packet 13 0), .move (.packet 5 1)]
    Counter.totals t = .ok { passed := 2 } ∧ Counter.sources t = .ok [one, other] ∧
      Counter.sources t' = .ok [other, one] ∧
      (∃ report, Statistics.collect t = .ok report ∧ report.entries.Perm [one, other] ∧
        report.entries.Pairwise SourceTally.Outranks ∧ Statistics.collect t' = .ok report) ∧
      Statistics.collect t' = Statistics.collect t := by
  intro one other session t t'
  have htotals : Counter.totals t = .ok { passed := 2 } := by decide +kernel
  have htotals' : Counter.totals t' = .ok { passed := 2 } := by decide +kernel
  have hsources : Counter.sources t = .ok [one, other] := by decide +kernel
  have hsources' : Counter.sources t' = .ok [other, one] := by decide +kernel
  obtain ⟨hreports, htables⟩ := reports_rank_canonically
  obtain ⟨report, hreport, -, hentries, -, -, hdistinct⟩ := hreports _ t _ _ htotals hsources
  obtain ⟨hranked, hothers⟩ := hdistinct (by decide)
  have hswap : [other, one].Perm [one, other] := List.Perm.swap one other []
  have hreport' := hothers _ t' [other, one] htotals' hsources' hswap
  have hcounts : t.Counts _ := Service.counts_run Tables.Counts.empty _
  have hcounts' : t'.Counts _ := Service.counts_run Tables.Counts.empty _
  obtain ⟨listed, hlisted, -, hmem⟩ := hcounts.exists_listed
  obtain ⟨listed', hlisted', -, hmem'⟩ := hcounts'.exists_listed
  obtain rfl := Except.ok.inj (hsources.symm.trans hlisted)
  obtain rfl := Except.ok.inj (hsources'.symm.trans hlisted')
  have hsame (a : Address) : t'.tallies.get? a.toNat = t.tallies.get? a.toNat := by
    refine Option.ext fun tally => ?_
    rw [← hmem ⟨a, tally⟩, ← hmem' ⟨a, tally⟩]
    exact hswap.mem_iff
  exact ⟨htotals, hsources, hsources', ⟨report, hreport, hentries, hranked, hreport'⟩,
    htables 4 4 _ _ (by decide +kernel) fun a => congrArg (Option.getD · {}) (hsame a)⟩

end SourceFilter
