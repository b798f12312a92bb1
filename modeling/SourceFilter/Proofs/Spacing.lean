import SourceFilter.Proofs.Refinement

/-!
# How far apart packets pass

A rule keeps the packets of its source an interval apart by the time that was noted for the last
admitted one. Times are never forgotten, also not when a rule is dropped, so the times of sources
without a rule may take up all the room. The first packet of a source with a rule then passes
without being noted, and so do all later ones. As long as the time of a source is noted while its
rule is live, no later packet moves it back, so its packets pass an interval apart.
-/

namespace SourceFilter

namespace Reference

variable {capacity : Nat} {r : Reference capacity} {source : Address} {rate : Rate}
  {time now : UInt64}

/-- A packet of the source was admitted at the time or later. -/
def NotedSince (source : Address) (time : UInt64) (r : Reference capacity) : Prop :=
  ∃ last, r.admitted.lookup source = some last ∧ time.toNat ≤ last.toNat

/-- Other sources have taken up the room for the times. -/
structure Overlooked (source : Address) (r : Reference capacity) : Prop where
  /-- There is no time of the source. -/
  absent : r.admitted.lookup source = none
  /-- There is no room for one. -/
  full : capacity ≤ r.admitted.keys.card

/-- What the gate answers and notes when the source has a rate. -/
theorem ask_of_rate (hrate : r.rules.rates.lookup source = some rate) (now : UInt64) :
    (r.ask source now).1 = (consult capacity rate source now r.admitted).1 ∧
      (r.ask source now).2.admitted = (consult capacity rate source now r.admitted).2 := by
  simp only [ask, hrate]
  exact ⟨trivial, trivial⟩

/-- A packet of another source changes nothing about this one. -/
theorem lookup_ask_of_ne {other : Address} (hne : source ≠ other) (now : UInt64) :
    (r.ask other now).2.admitted.lookup source = r.admitted.lookup source := by
  unfold ask
  cases r.rules.rates.lookup other with
  | none => rfl
  | some rate =>
    dsimp only [consult]
    split
    next =>
      split
      next => exact Finmap.lookup_insert_of_ne _ hne
      next => rfl
    next =>
      dsimp only
      split
      next => exact Finmap.lookup_insert_of_ne _ hne
      next => rfl

/-- A packet that is admitted is noted if there is a time of its source afterwards. -/
theorem notedSince_of_admitted (hrate : r.rules.rates.lookup source = some rate)
    (hask : (r.ask source now).1 = .admitted)
    (hsome : (r.judge source now).2.admitted.lookup source ≠ none) :
    (r.judge source now).2.NotedSince source now := by
  obtain ⟨hanswer, hnoted⟩ := ask_of_rate hrate now
  have hnow (hinsert : (r.judge source now).2.admitted = r.admitted.insert source now) :
      (r.judge source now).2.NotedSince source now := by
    refine ⟨now, ?_, Nat.le_refl _⟩
    rw [hinsert, Finmap.lookup_insert]
  rw [hanswer, consult] at hask
  rw [← admitted_judge, consult] at hnoted
  cases hlast : r.admitted.lookup source with
  | some last =>
    simp only [hlast] at hask hnoted
    split at hask
    next hgate => exact hnow (hnoted.trans (congrArg Prod.snd (if_pos hgate)))
    next => cases hask
  | none =>
    simp only [hlast] at hnoted
    split at hnoted
    next => exact hnow hnoted
    next =>
      rw [hnoted] at hsome
      exact absurd hlast hsome

/-- A source with a rate that has no time after one of its packets is overlooked. -/
theorem overlooked_of_absent (hrate : r.rules.rates.lookup source = some rate)
    (habsent : (r.judge source now).2.admitted.lookup source = none) :
    (r.judge source now).2.Overlooked source := by
  have hnoted := (ask_of_rate hrate now).2
  rw [← admitted_judge, consult] at hnoted
  have hinsert : (r.judge source now).2.admitted ≠ r.admitted.insert source now := by
    intro he
    rw [he, Finmap.lookup_insert] at habsent
    cases habsent
  cases hlast : r.admitted.lookup source with
  | some last =>
    simp only [hlast] at hnoted
    split at hnoted
    next => exact absurd hnoted hinsert
    next =>
      rw [hnoted] at habsent
      cases hlast.symm.trans habsent
  | none =>
    simp only [hlast] at hnoted
    split at hnoted
    next => exact absurd hnoted hinsert
    next hfull => exact ⟨habsent, hnoted ▸ Nat.le_of_not_lt hfull⟩

namespace NotedSince

/-- A packet of a noted source is admitted an interval after the noted time. -/
theorem apart (h : r.NotedSince source time) (hrate : r.rules.rates.lookup source = some rate)
    (hpos : 0 < rate.interval.toNat) (hask : (r.ask source now).1 = .admitted) :
    time.toNat + rate.interval.toNat ≤ now.toNat := by
  obtain ⟨last, hlast, htime⟩ := h
  rw [(ask_of_rate hrate now).1, consult, hlast] at hask
  dsimp only at hask
  split at hask
  next hgate =>
    rw [← rate.toNat_interval] at hgate
    omega
  next => cases hask

/-- No packet moves the time of a source back while its rule is live. -/
theorem judge (h : r.NotedSince source time) (hrate : r.rules.rates.lookup source = some rate)
    (hpos : 0 < rate.interval.toNat) (other : Address) (now : UInt64) :
    (r.judge other now).2.NotedSince source time := by
  obtain ⟨last, hlast, htime⟩ := h
  rw [NotedSince, admitted_judge]
  by_cases hother : source = other
  · subst hother
    rw [(ask_of_rate hrate now).2, consult, hlast]
    dsimp only
    split
    next hgate =>
      rw [← rate.toNat_interval] at hgate
      have hlater : time.toNat ≤ now.toNat := by
        omega
      exact ⟨now, Finmap.lookup_insert _, hlater⟩
    next => exact ⟨last, hlast, htime⟩
  · rw [lookup_ask_of_ne hother]
    exact ⟨last, hlast, htime⟩

end NotedSince

namespace Overlooked

/-- The gate lets all packets of an overlooked source through. -/
theorem ask (h : r.Overlooked source) (now : UInt64) : (r.ask source now).1 = .admitted := by
  unfold Reference.ask
  cases r.rules.rates.lookup source with
  | none => rfl
  | some rate =>
    simp only [consult, h.absent]

/-- A source that is overlooked remains so, whatever packets come. -/
theorem judge (h : r.Overlooked source) (other : Address) (now : UInt64) :
    (r.judge other now).2.Overlooked source := by
  have hsame (hnoted : (r.ask other now).2.admitted = r.admitted) :
      (r.judge other now).2.Overlooked source := by
    rw [← admitted_judge] at hnoted
    exact ⟨hnoted ▸ h.absent, hnoted ▸ h.full⟩
  cases hrate : r.rules.rates.lookup other with
  | none =>
    apply hsame
    simp only [Reference.ask, hrate]
  | some rate =>
    have hnoted := (ask_of_rate hrate now).2
    rw [consult] at hnoted
    cases hlast : r.admitted.lookup other with
    | none =>
      apply hsame
      simpa only [hlast, if_neg (Nat.not_lt.2 h.full)] using hnoted
    | some last =>
      simp only [hlast] at hnoted
      split at hnoted
      next =>
        -- A source that was noted before takes no more room.
        have hne : source ≠ other := by
          intro he
          cases hlast.symm.trans (he ▸ h.absent)
        have hmem : other ∈ r.admitted := Finmap.mem_of_lookup_eq_some hlast
        have hkeys : (r.admitted.insert other now).keys = r.admitted.keys := by
          ext k
          rw [Finmap.mem_keys, Finmap.mem_keys, Finmap.mem_insert]
          exact or_iff_right_of_imp fun hk => hk ▸ hmem
        rw [← admitted_judge] at hnoted
        constructor
        · rw [hnoted, Finmap.lookup_insert_of_ne _ hne, h.absent]
        · rw [hnoted, hkeys]
          exact h.full
      next => exact hsame hnoted

/-- A source that has a rule is overlooked for the times of sources that have none. -/
theorem exists_without_rule (h : r.Overlooked source) (hrule : source ∈ r.rules.rates)
    (hcard : r.rules.rates.keys.card ≤ capacity) :
    ∃ other, other ∈ r.admitted ∧ other ∉ r.rules.rates := by
  by_contra hnone
  have hsubset : r.admitted.keys ⊆ r.rules.rates.keys := by
    intro other hother
    by_contra hrates
    exact hnone ⟨other, Finmap.mem_keys.1 hother, fun hmem => hrates (Finmap.mem_keys.2 hmem)⟩
  have habsent : source ∉ r.admitted.keys := fun hmem =>
    Finmap.lookup_eq_none.1 h.absent (Finmap.mem_keys.1 hmem)
  have hstrict : r.admitted.keys ⊂ r.rules.rates.keys :=
    Finset.ssubset_iff_of_subset hsubset |>.2 ⟨source, Finmap.mem_keys.2 hrule, habsent⟩
  have hless := Finset.card_lt_card hstrict
  have hfull := h.full
  omega

end Overlooked

/-- A pass notes no packets. -/
theorem admitted_pass (s : Service (Reference capacity)) (clock : UInt64) (faults : Faults)
    (raw : String) :
    (s.pass clock faults raw).store.store.admitted = s.store.admitted := by
  have hkeeps : Keeps (fun _ => True)
      fun _ (r : Reference capacity) => r.admitted = s.store.admitted := fun _ _ _ _ h => h
  exact reconcile_invariant hkeeps.faulty (fun _ _ _ h => h) (fun _ _ => trivial) rfl

section Moves

variable {s : Service (Reference capacity)}

/-- No move makes a noted time earlier while the rule is live. -/
theorem NotedSince.move (hrate : s.store.rules.rates.lookup source = some rate)
    (hpos : 0 < rate.interval.toNat) (h : s.store.NotedSince source time) (m : Move) :
    (Service.move m s).2.store.NotedSince source time := by
  cases m with
  | pass clock faults raw =>
    have hsame : (Service.move (.pass clock faults raw) s).2.store.admitted = s.store.admitted :=
      admitted_pass s clock faults raw
    rw [NotedSince, hsame]
    exact h
  | packet other now => exact h.judge hrate hpos other now

/-- No move gives an overlooked source room. -/
theorem Overlooked.move (h : s.store.Overlooked source) (m : Move) :
    (Service.move m s).2.store.Overlooked source := by
  cases m with
  | pass clock faults raw =>
    have hsame : (Service.move (.pass clock faults raw) s).2.store.admitted = s.store.admitted :=
      admitted_pass s clock faults raw
    exact ⟨hsame ▸ h.absent, hsame ▸ h.full⟩
  | packet other now => exact h.judge other now

/-- In a run throughout which the rule is live, a packet that is admitted comes an interval after
the noted time. -/
theorem NotedSince.apart_run {moves : List Move}
    (hlive : Throughout Service.move
      (fun s : Service (Reference capacity) => s.store.rules.rates.lookup source = some rate)
      moves s)
    (hpos : 0 < rate.interval.toNat) (h : s.store.NotedSince source time)
    (hask : ((runAll Service.move moves s).2.store.ask source now).1 = .admitted) :
    time.toNat + rate.interval.toNat ≤ now.toNat := by
  have hkept : (runAll Service.move moves s).2.store.NotedSince source time :=
    hlive.invariant (Q := fun s => s.store.NotedSince source time)
      (fun m _ hrate h => h.move hrate hpos m) h
  exact hkept.apart hlive.last hpos hask

/-- An overlooked source remains so in every run. -/
theorem Overlooked.run (h : s.store.Overlooked source) (moves : List Move) :
    (runAll Service.move moves s).2.store.Overlooked source :=
  runAll_invariant (P := fun s : Service (Reference capacity) => s.store.Overlooked source)
    (fun m _ h => h.move m) h moves

end Moves

end Reference

namespace Service

/-- When a source is overlooked, there is no room in the table of the times. -/
theorem StandsFor.size_of_overlooked {capacity : Nat} {a : Service (Tables capacity)}
    {b : Service (Reference capacity)} (h : a.StandsFor b) {source : Address}
    (hover : b.store.Overlooked source) : a.store.stamps.size = capacity := by
  have hbounded := h.store.stamps.files.sound.bounded
  have hfull := hover.full
  rw [← h.store.stamps.size_eq] at hfull
  exact Nat.le_antisymm hbounded hfull

/-- When a source with a rule is overlooked, the table has a time of a source without one. -/
theorem StandsFor.exists_without_rule {capacity : Nat} {a : Service (Tables capacity)}
    {b : Service (Reference capacity)} (h : a.StandsFor b) {rule : RateRule}
    (hrule : rule ∈ a.store.rateRules) (hover : b.store.Overlooked rule.source) :
    ∃ other : Address, (a.store.stamps.get? other.toNat).isSome ∧
      ∀ r ∈ a.store.rateRules, r.source ≠ other := by
  have hrate := h.mem_rateRules.1 hrule
  obtain ⟨other, htime, hnone⟩ :=
    hover.exists_without_rule (Finmap.mem_of_lookup_eq_some hrate) h.card_rates_le
  refine ⟨other, ?_, fun r hr he => ?_⟩
  · rw [h.stamps_eq, Option.isSome_map]
    exact Finmap.lookup_isSome.2 htime
  · exact hnone (he ▸ Finmap.mem_of_lookup_eq_some (h.mem_rateRules.1 hr))

/-- The packets of a source with a rule pass an interval apart while the rule stays live, if the
time of the first one was noted. It is noted unless the times of other sources have taken up all the
room; one of these then has no rule, and no packet of the source is ever held back by the gate
again. -/
theorem passes_apart_if_noted (capacity : Nat) (before between : List Move) (rule : RateRule)
    (first second : UInt64) (hinterval : 1 ≤ rule.rate.interval.toNat) :
    let start := (runAll move before { store := (Tables.empty : Tables capacity) }).2
    let noted := (move (.packet rule.source first) start).2
    let stamps := noted.store.stamps
    Throughout move (fun s => rule ∈ s.store.rateRules) between noted →
      ((stamps.get? rule.source.toNat).isSome →
        (move (.packet rule.source first) start).1 = .packet .pass →
        (move (.packet rule.source second) (runAll move between noted).2).1 = .packet .pass →
        first.toNat + rule.rate.interval.toNat ≤ second.toNat) ∧
      (stamps.get? rule.source.toNat = none →
        stamps.size = capacity ∧
        (∃ other : Address, (stamps.get? other.toNat).isSome ∧
          ∀ r ∈ noted.store.rateRules, r.source ≠ other) ∧
        ∀ later now,
          ((runAll move later noted).2.store.admission rule.source now).1 = .admitted) := by
  intro start noted stamps hthroughout
  let start' := (runAll move before { store := ({} : Reference capacity) }).2
  let noted' := (move (.packet rule.source first) start').2
  have hstart : start.StandsFor start' := StandsFor.start.run before
  have hnoted : noted.StandsFor noted' := hstart.move (.packet rule.source first)
  have hlive : Throughout move
      (fun s => s.store.rules.rates.lookup rule.source = some rule.rate) between noted' :=
    hthroughout.transfer (fun m a b (h : a.StandsFor b) => h.move m)
      (fun a b h hrule => h.mem_rateRules.1 hrule) hnoted
  have hrate : start'.store.rules.rates.lookup rule.source = some rule.rate := by
    rw [← Reference.rules_judge rule.source first start'.store]
    exact hlive.first
  constructor
  · intro hsome hpass hpass'
    have hadmitted : noted'.store.admitted.lookup rule.source ≠ none := by
      intro hnone
      rw [hnoted.stamps_eq, hnone] at hsome
      cases hsome
    have hfirst := Tables.admission_of_pass (Response.packet.inj hpass)
    have hsecond := Tables.admission_of_pass (Response.packet.inj hpass')
    rw [hstart.admission_eq] at hfirst
    rw [(hnoted.run between).admission_eq] at hsecond
    have hsince : noted'.store.NotedSince rule.source first :=
      Reference.notedSince_of_admitted hrate hfirst hadmitted
    exact hsince.apart_run hlive hinterval hsecond
  · intro hnone
    have habsent : noted'.store.admitted.lookup rule.source = none :=
      Option.map_eq_none_iff.1 ((hnoted.stamps_eq rule.source).symm.trans hnone)
    have hover : noted'.store.Overlooked rule.source :=
      Reference.overlooked_of_absent hrate habsent
    refine ⟨hnoted.size_of_overlooked hover, hnoted.exists_without_rule hthroughout.first hover,
      fun later now => ?_⟩
    rw [(hnoted.run later).admission_eq]
    exact (hover.run later).ask now

/-- At a rate of one packet a second, a noted packet and the one a second later pass. -/
theorem passes_apart_after_a_second :
    let rule : RateRule := ⟨Address.ofOctets 10 0 0 2, ⟨1, by decide⟩⟩
    let before := [Move.pass 1 (fun _ _ => none) "interface=e\nip_rate_limits=10.0.0.2:1"]
    let start := (runAll move before { store := (Tables.empty : Tables 1) }).2
    let noted := (move (.packet rule.source 0) start).2
    let between := [Move.packet rule.source 999999999]
    1 ≤ rule.rate.interval.toNat ∧
      Throughout move (fun s => rule ∈ s.store.rateRules) between noted ∧
      (noted.store.stamps.get? rule.source.toNat).isSome ∧
      (move (.packet rule.source 0) start).1 = .packet .pass ∧
      (move (.packet rule.source 1000000000) (runAll move between noted).2).1 = .packet .pass ∧
      (0 : UInt64).toNat + rule.rate.interval.toNat ≤ (1000000000 : UInt64).toNat := by
  intro rule before start noted between
  have hinterval : 1 ≤ rule.rate.interval.toNat := by decide
  have hlive : Throughout move (fun s => rule ∈ s.store.rateRules) between noted := by
    unfold between noted start before rule
    exact ⟨List.mem_mergeSort.2 (by decide +kernel), List.mem_mergeSort.2 (by decide +kernel)⟩
  have hsome : (noted.store.stamps.get? rule.source.toNat).isSome := by
    unfold noted start before rule
    rfl
  have hfirst : (move (.packet rule.source 0) start).1 = .packet .pass := by
    unfold start before rule
    rfl
  have hsecond : (move (.packet rule.source 1000000000) (runAll move between noted).2).1 =
      .packet .pass := by
    unfold between noted start before rule
    rfl
  obtain ⟨hapart, -⟩ :=
    passes_apart_if_noted 1 before between rule 0 1000000000 hinterval hlive
  exact ⟨hinterval, hlive, hsome, hfirst, hsecond, hapart hsome hfirst hsecond⟩

/-- The time of a source whose rule was dropped can take up the room, and then two packets pass at
once at a rate of one a second. -/
theorem passes_at_once_when_overlooked :
    let rule : RateRule := ⟨Address.ofOctets 10 0 0 2, ⟨1, by decide⟩⟩
    let before := [Move.pass 1 (fun _ _ => none) "interface=e\nip_rate_limits=10.0.0.1:1",
      .packet (Address.ofOctets 10 0 0 1) 0,
      .pass 1 (fun _ _ => none) "interface=e\nip_rate_limits=10.0.0.2:1"]
    let start := (runAll move before { store := (Tables.empty : Tables 1) }).2
    let noted := (move (.packet rule.source 0) start).2
    1 ≤ rule.rate.interval.toNat ∧
      Throughout move (fun s => rule ∈ s.store.rateRules) [] noted ∧
      (move (.packet rule.source 0) start).1 = .packet .pass ∧
      (move (.packet rule.source 1) noted).1 = .packet .pass ∧
      ¬(0 : UInt64).toNat + rule.rate.interval.toNat ≤ (1 : UInt64).toNat := by
  intro rule before start noted
  refine ⟨by decide, ?_, ?_, ?_, by decide⟩
  · unfold noted start before rule
    exact List.mem_mergeSort.2 (by decide +kernel)
  · unfold start before rule
    rfl
  · unfold noted start before rule
    rfl

end Service

end SourceFilter
