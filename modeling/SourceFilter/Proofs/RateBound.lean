import SourceFilter.Proofs.Spacing

/-!
# How many packets a second are admitted

While the rule of a source stays as it is and the time of its last admitted packet is noted, every
packet is compared with the last admitted one. So the admitted packets are an interval apart, in the
order in which they came, and a second holds no more of them than intervals begin in it. As an
interval is rounded down to whole nanoseconds, this may be more than the rate; it is the rate if the
rate divides a second.
-/

namespace SourceFilter

/-- Times that are a gap apart fill a window at most so often. -/
theorem length_le_of_apart {gap : Nat} (hgap : 0 < gap) {times : List UInt64}
    (hapart : times.Pairwise fun t u => t.toNat + gap ≤ u.toNat) {lower upper : Nat}
    (hwindow : ∀ t ∈ times, lower ≤ t.toNat ∧ t.toNat < upper) :
    times.length ≤ (upper - lower + gap - 1) / gap := by
  induction times generalizing lower with
  | nil => exact Nat.zero_le _
  | cons t times ih =>
    obtain ⟨hfirst, hrest⟩ := List.pairwise_cons.1 hapart
    obtain ⟨hlower, hupper⟩ := hwindow t List.mem_cons_self
    -- the later times lie in a window that begins a gap later
    have hlater (u : UInt64) (hu : u ∈ times) : lower + gap ≤ u.toNat ∧ u.toNat < upper :=
      ⟨(Nat.add_le_add_right hlower gap).trans (hfirst u hu),
        (hwindow u (List.mem_cons_of_mem _ hu)).2⟩
    have hfew := ih hrest hlater
    rw [Nat.le_div_iff_mul_le hgap] at hfew ⊢
    rw [List.length_cons, Nat.succ_mul]
    cases times with
    | nil =>
      rw [List.length_nil, Nat.zero_mul]
      omega
    | cons u times =>
      have hroom := hlater u List.mem_cons_self
      omega

/-- A window holds at most as many of them as gaps begin in it. -/
theorem countP_le_of_apart {gap : Nat} (hgap : 0 < gap) {times : List UInt64}
    (hapart : times.Pairwise fun t u => t.toNat + gap ≤ u.toNat) (lower width : Nat) :
    (times.countP fun t => lower ≤ t.toNat ∧ t.toNat < lower + width) ≤
      (width + gap - 1) / gap := by
  rw [List.countP_eq_length_filter]
  have hwindow (t : UInt64) (ht : t ∈ times.filter fun t =>
      lower ≤ t.toNat ∧ t.toNat < lower + width) :
      lower ≤ t.toNat ∧ t.toNat < lower + width := of_decide_eq_true (List.mem_filter.1 ht).2
  have hfew := length_le_of_apart hgap (hapart.sublist List.filter_sublist) hwindow
  rwa [Nat.add_sub_cancel_left] at hfew

/-- If a rate divides a second, a second begins as many intervals as the rate says. -/
theorem Rate.ceil_div_interval (rate : Rate) (h : rate.perSecond.toNat ∣ 1000000000) :
    (1000000000 + rate.interval.toNat - 1) / rate.interval.toNat = rate.perSecond.toNat := by
  have hpos : 0 < rate.perSecond.toNat := UInt32.lt_iff_toNat_lt.1 rate.positive
  obtain ⟨gap, hgap⟩ := h
  have hinterval : rate.interval.toNat = gap := by
    rw [rate.toNat_interval, hgap, Nat.mul_div_cancel_left gap hpos]
  have hgappos : 0 < gap := by
    apply Nat.pos_of_ne_zero
    rintro rfl
    cases hgap
  rw [hinterval, hgap, Nat.add_sub_assoc hgappos, Nat.mul_comm, Nat.mul_add_div hgappos,
    Nat.div_eq_of_lt (Nat.sub_lt hgappos Nat.one_pos), Nat.add_zero]

/-- Packets were admitted at these times, in this order, between the two times that were noted. -/
structure Gated (gap : Nat) (before : Option UInt64) (times : List UInt64)
    (after : Option UInt64) : Prop where
  /-- They are a gap apart, and the first is a gap behind the one noted before. -/
  apart : (before.toList ++ times).Pairwise fun t u => t.toNat + gap ≤ u.toNat
  /-- The last one is noted. -/
  last : (before.toList ++ times).getLast? = after

namespace Gated

variable {gap : Nat} {before after : Option UInt64} {times : List UInt64} {now : UInt64}

/-- Nothing has to be noted when no packet is admitted. -/
theorem refl (gap : Nat) (before : Option UInt64) : Gated gap before [] before := by
  cases before with
  | none => exact ⟨.nil, rfl⟩
  | some last => exact ⟨List.pairwise_singleton _ _, rfl⟩

/-- The first packet is admitted a gap behind the one noted before. -/
theorem next (hgate : ∀ last ∈ before, last.toNat + gap ≤ now.toNat)
    (h : Gated gap (some now) times after) : Gated gap before (now :: times) after := by
  have hbefore : before.toList.Pairwise fun t u => t.toNat + gap ≤ u.toNat :=
    (List.pairwise_append.1 (refl gap before).apart).1
  have hlater := (List.pairwise_cons.1 h.apart).1
  constructor
  · refine List.pairwise_append.2 ⟨hbefore, h.apart, fun t ht u hu => ?_⟩
    have hnow := hgate t (Option.mem_toList.1 ht)
    rcases List.mem_cons.1 hu with rfl | hu
    · exact hnow
    · have hu' := hlater u hu
      omega
  · rw [List.getLast?_append_cons]
    exact h.last

end Gated

namespace Service

variable {capacity : Nat}

/-- The time of the packet of a source that the gate admits in a move. -/
def admittedTime? (s : Service (Tables capacity)) (a : Address) : Move → Option UInt64
  | .pass _ _ _ => none
  | .packet source now =>
    if source = a ∧ (s.store.admission source now).1 = .admitted then some now else none

/-- The times of the packets of a source that the gate admits in a session, in order. -/
def admittedTimes (a : Address) : List Move → Service (Tables capacity) → List UInt64
  | [], _ => []
  | m :: moves, s => (s.admittedTime? a m).toList ++ admittedTimes a moves (move m s).2

end Service

namespace Reference

variable {capacity : Nat} {r : Reference capacity} {source : Address} {rate : Rate} {now : UInt64}

/-- What the gate does about a packet of a source with a rate, if there is room for its time: it
admits the packet and notes it, or rejects it because the last admitted one is too close. -/
theorem ask_cases (hrate : r.rules.rates.lookup source = some rate)
    (hseen : ¬ (r.judge source now).2.Overlooked source) :
    ((r.ask source now).1 = .admitted ∧
      (∀ last ∈ r.admitted.lookup source, rate.interval.toNat ≤ now.toNat - last.toNat) ∧
      (r.judge source now).2.admitted.lookup source = some now) ∨
    ((r.ask source now).1 = .rejected ∧
      (∃ last ∈ r.admitted.lookup source, now.toNat - last.toNat < rate.interval.toNat) ∧
      (r.judge source now).2.admitted.lookup source = r.admitted.lookup source) := by
  have hnoted : (r.judge source now).2.admitted.lookup source ≠ none :=
    fun habsent => hseen (overlooked_of_absent hrate habsent)
  obtain ⟨hanswer, hafter⟩ := ask_of_rate hrate now
  rw [admitted_judge, hafter] at hnoted ⊢
  rw [hanswer, rate.toNat_interval]
  unfold consult at hnoted ⊢
  cases hlast : r.admitted.lookup source with
  | some last =>
    dsimp only
    split
    next hgate =>
      refine .inl ⟨rfl, fun t ht => ?_, Finmap.lookup_insert _⟩
      cases ht
      exact hgate
    next hgate => exact .inr ⟨rfl, ⟨last, rfl, Nat.lt_of_not_le hgate⟩, hlast⟩
  | none =>
    simp only [hlast] at hnoted ⊢
    split at hnoted
    next hroom =>
      rw [if_pos hroom]
      exact .inl ⟨trivial, fun t ht => absurd ht (Option.not_mem_none t), Finmap.lookup_insert _⟩
    next => exact absurd hlast hnoted

/-- A time is never taken away when a packet is judged. -/
theorem mem_judge (h : source ∈ r.admitted) (other : Address) (now : UInt64) :
    source ∈ (r.judge other now).2.admitted := by
  have hinsert : source ∈ r.admitted.insert other now := Finmap.mem_insert.2 (.inr h)
  rw [admitted_judge]
  unfold ask
  cases r.rules.rates.lookup other with
  | none => exact h
  | some rate =>
    dsimp only [consult]
    split
    next =>
      split
      next => exact hinsert
      next => exact h
    next =>
      dsimp only
      split
      next => exact hinsert
      next => exact h

end Reference

namespace Service

variable {capacity : Nat} {s : Service (Tables capacity)} {b : Service (Reference capacity)}
  {rule : RateRule} {moves : List Move}

/-- While its rule is live and there is room for its time, the packets of a source are admitted an
interval apart. -/
theorem StandsFor.gated (h : s.StandsFor b)
    (hlive : Throughout Service.move (fun s => rule ∈ s.store.rateRules) moves s)
    (hpos : 0 < rule.rate.interval.toNat)
    (hseen : ¬ (runAll Service.move moves b).2.store.Overlooked rule.source) :
    Gated rule.rate.interval.toNat (s.store.noted? rule.source)
      (admittedTimes rule.source moves s)
      ((runAll Service.move moves s).2.store.noted? rule.source) := by
  induction moves generalizing s b with
  | nil => exact .refl _ _
  | cons m moves ih =>
    have hafter := h.move m
    have hrest := ih hafter hlive.2 hseen
    -- a move that neither admits a packet of the source nor changes its time adds nothing
    have hsame (hnone : s.admittedTime? rule.source m = none)
        (hadmitted : (Service.move m b).2.store.admitted.lookup rule.source =
          b.store.admitted.lookup rule.source) :
        Gated rule.rate.interval.toNat (s.store.noted? rule.source)
          (admittedTimes rule.source (m :: moves) s)
          ((runAll Service.move (m :: moves) s).2.store.noted? rule.source) := by
      rw [hafter.noted?_eq, hadmitted, ← h.noted?_eq] at hrest
      rw [admittedTimes, hnone]
      exact hrest
    cases m with
    | pass clock faults raw =>
      have hpass := Reference.admitted_pass b clock faults raw
      exact hsame rfl (congrArg (Finmap.lookup rule.source) hpass)
    | packet source now =>
      by_cases hsource : source = rule.source
      · subst hsource
        have hrate := h.mem_rateRules.1 hlive.first
        have hroom : ¬ (Service.move (.packet rule.source now) b).2.store.Overlooked rule.source :=
          fun hover => hseen (hover.run moves)
        have hadmission := h.admission_eq rule.source now
        rcases Reference.ask_cases hrate hroom with
          ⟨hanswer, hgate, hnoted⟩ | ⟨hanswer, -, hnoted⟩
        · have htime : s.admittedTime? rule.source (.packet rule.source now) = some now :=
            if_pos ⟨rfl, hadmission.trans hanswer⟩
          have hnow : (Service.move (.packet rule.source now) s).2.store.noted? rule.source =
              some now := (hafter.noted?_eq _).trans hnoted
          rw [hnow] at hrest
          rw [admittedTimes, htime]
          refine hrest.next fun last hlast => ?_
          rw [h.noted?_eq] at hlast
          have hapart := hgate last hlast
          omega
        · have hnone : s.admittedTime? rule.source (.packet rule.source now) = none := by
            refine if_neg fun hown => ?_
            cases (hadmission.trans hanswer).symm.trans hown.2
          exact hsame hnone hnoted
      · have hnone : s.admittedTime? rule.source (.packet source now) = none :=
          if_neg fun hown => hsource hown.1
        have hother := Reference.lookup_ask_of_ne (r := b.store) (Ne.symm hsource) now
        exact hsame hnone hother

/-- The gate rejects a packet when the last admitted one is less than an interval ago. The packet is
then dropped, and the noted time stays; the time of an admitted packet is noted. -/
theorem StandsFor.gate_cases (h : s.StandsFor b) (hlive : rule ∈ s.store.rateRules) (now : UInt64)
    (hseen : ¬ (Service.move (.packet rule.source now) b).2.store.Overlooked rule.source) :
    let after := Service.move (.packet rule.source now) s
    ((s.store.admission rule.source now).1 = .rejected ↔
      ∃ last, s.store.noted? rule.source = some last ∧
        now.toNat - last.toNat < rule.rate.interval.toNat) ∧
    ((s.store.admission rule.source now).1 = .rejected →
      after.1 = .packet .drop ∧ after.2.store.noted? rule.source = s.store.noted? rule.source) ∧
    ((s.store.admission rule.source now).1 = .admitted →
      after.2.store.noted? rule.source = some now) := by
  intro after
  have hverdict := (s.store.classify_eq rule.source now).1
  rw [h.admission_eq] at hverdict
  rw [h.admission_eq, h.noted?_eq, (h.move (.packet rule.source now)).noted?_eq]
  rcases Reference.ask_cases (h.mem_rateRules.1 hlive) hseen with
    ⟨hanswer, hgate, hnoted⟩ | ⟨hanswer, hclose, hnoted⟩
  · rw [hanswer]
    refine ⟨⟨nofun, fun hclose => ?_⟩, nofun, fun _ => hnoted⟩
    obtain ⟨last, hlast, hless⟩ := hclose
    exact absurd (hgate last hlast) (Nat.not_le_of_lt hless)
  · refine ⟨iff_of_true hanswer hclose, fun _ => ⟨?_, hnoted⟩, fun h => ?_⟩
    · exact congrArg Response.packet (hverdict.trans (if_pos hanswer))
    · cases hanswer.symm.trans h

/-- A noted time is never taken away. -/
theorem StandsFor.noted?_isSome_run (h : s.StandsFor b) {source : Address}
    (hsome : (s.store.noted? source).isSome) (moves : List Move) :
    ((runAll Service.move moves s).2.store.noted? source).isSome := by
  have hkeeps (m : Move) (b : Service (Reference capacity)) (hmem : source ∈ b.store.admitted) :
      source ∈ (Service.move m b).2.store.admitted := by
    cases m with
    | pass clock faults raw => exact (Reference.admitted_pass b clock faults raw).symm ▸ hmem
    | packet other now => exact Reference.mem_judge hmem other now
  rw [h.noted?_eq, Finmap.lookup_isSome] at hsome
  rw [(h.run moves).noted?_eq, Finmap.lookup_isSome]
  exact runAll_invariant (P := fun b : Service (Reference capacity) => source ∈ b.store.admitted)
    hkeeps hsome moves

/-- Admitted packets keep the rate. While a source has the same rule of at most 10^9 packets a
second, and there is a record of the times of its packets, the packets that the gate admits are at
least an interval of a nanosecond or more apart, in the order in which they come and from the one
that was noted before. At every packet the noted time is that of the last admitted one; the packet
is rejected exactly when it comes less than an interval after that time, and it is then dropped and
leaves the time as it is, while an admitted packet sets it to its own. So no second holds more
admitted packets than intervals begin in it, which are as many as the rate if the rate divides a
second. Packets may come with any times and in any order, and anything else may happen in between.
-/
theorem admitted_packets_keep_rate (capacity : Nat) (before stretch : List Move) (rule : RateRule)
    (hrate : rule.rate.perSecond.toNat ≤ 1000000000) :
    let start := (runAll move before { store := (Tables.empty : Tables capacity) }).2
    let gap := 1000000000 / rule.rate.perSecond.toNat
    let noted := (start.store.noted? rule.source).toList
    let times := admittedTimes rule.source stretch start
    Throughout move (fun s => rule ∈ s.store.rateRules) stretch start →
      (∃ done rest, stretch = done ++ rest ∧
        ((runAll move done start).2.store.noted? rule.source).isSome) →
      1 ≤ gap ∧
        (noted ++ times).Pairwise (fun t u => t.toNat + gap ≤ u.toNat) ∧
        (∀ done now rest, stretch = done ++ .packet rule.source now :: rest →
          let s := (runAll move done start).2
          let last := (noted ++ admittedTimes rule.source done start).getLast?
          let after := move (.packet rule.source now) s
          s.store.noted? rule.source = last ∧
            ((s.store.admission rule.source now).1 = .rejected ↔
              ∃ time, last = some time ∧ now.toNat - time.toNat < gap) ∧
            ((s.store.admission rule.source now).1 = .rejected →
              after.1 = .packet .drop ∧ after.2.store.noted? rule.source = last) ∧
            ((s.store.admission rule.source now).1 = .admitted →
              after.2.store.noted? rule.source = some now)) ∧
        (∀ lower, (times.countP fun t => lower ≤ t.toNat ∧ t.toNat < lower + 1000000000) ≤
          (1000000000 + gap - 1) / gap) ∧
        (rule.rate.perSecond.toNat ∣ 1000000000 →
          (1000000000 + gap - 1) / gap = rule.rate.perSecond.toNat) := by
  intro start gap noted times hlive hrecord
  have hperSecond : 0 < rule.rate.perSecond.toNat := UInt32.lt_iff_toNat_lt.1 rule.rate.positive
  have hgap : rule.rate.interval.toNat = gap := rule.rate.toNat_interval
  have hpos : 1 ≤ gap := Nat.div_pos hrate hperSecond
  let start' := (runAll move before { store := ({} : Reference capacity) }).2
  have hstart : start.StandsFor start' := StandsFor.start.run before
  -- a time that was noted once is there in the end, so the source was overlooked at no time before
  have hlast : ((runAll move stretch start).2.store.noted? rule.source).isSome := by
    obtain ⟨done, rest, hsplit, hsome⟩ := hrecord
    rw [hsplit, runAll_append]
    exact (hstart.run done).noted?_isSome_run hsome rest
  have hseen (done rest : List Move) (hsplit : stretch = done ++ rest) :
      ¬ (runAll move done start').2.store.Overlooked rule.source := by
    intro hover
    have hend := hover.run rest
    rw [← runAll_append, ← hsplit] at hend
    have hnone := ((hstart.run stretch).noted?_eq rule.source).trans hend.absent
    rw [hnone] at hlast
    cases hlast
  have hgated := hstart.gated hlive (hgap ▸ hpos) (hseen stretch [] (List.append_nil _).symm)
  rw [hgap] at hgated
  refine ⟨hpos, hgated.apart, fun done now rest hsplit => ?_, fun lower => ?_, fun hdvd => ?_⟩
  · intro s last after
    subst hsplit
    have hlast : s.store.noted? rule.source = last :=
      (hstart.gated hlive.of_append (hgap ▸ hpos) (hseen done _ rfl)).last.symm
    have hnext := hseen (done ++ [.packet rule.source now]) rest (List.append_cons ..)
    rw [runAll_append] at hnext
    obtain ⟨hrejected, hkept, hmoved⟩ :=
      (hstart.run done).gate_cases hlive.after_append.first now hnext
    rw [hgap, hlast] at hrejected
    exact ⟨hlast, hrejected, fun hr => hlast ▸ hkept hr, hmoved⟩
  · have htimes : times.Pairwise fun t u => t.toNat + gap ≤ u.toNat :=
      (List.pairwise_append.1 hgated.apart).2.1
    exact countP_le_of_apart hpos htimes lower 1000000000
  · rw [← hgap]
    exact rule.rate.ceil_div_interval hdvd

/-- Three does not divide a second: at a rate of three packets a second, four intervals begin in one
second, and so many packets are admitted in it. -/
theorem four_packets_admitted_at_rate_three :
    let rule : RateRule := ⟨Address.ofOctets 10 0 0 2, ⟨3, by decide⟩⟩
    let before := [Move.pass 1 (fun _ _ => none) "interface=e\nip_rate_limits=10.0.0.2:3"]
    let stretch := [Move.packet rule.source 0, .packet rule.source 333333332,
      .packet rule.source 333333333, .packet rule.source 666666666, .packet rule.source 999999999]
    let start := (runAll move before { store := (Tables.empty : Tables 1) }).2
    let gap := 1000000000 / rule.rate.perSecond.toNat
    rule.rate.perSecond.toNat ≤ 1000000000 ∧
      Throughout move (fun s => rule ∈ s.store.rateRules) stretch start ∧
      (∃ done rest, stretch = done ++ rest ∧
        ((runAll move done start).2.store.noted? rule.source).isSome) ∧
      admittedTimes rule.source stretch start = [0, 333333333, 666666666, 999999999] ∧
      4 ≤ (1000000000 + gap - 1) / gap := by
  intro rule before stretch start gap
  have hrate : rule.rate.perSecond.toNat ≤ 1000000000 := by decide
  have hlive : Throughout move (fun s => rule ∈ s.store.rateRules) stretch start := by
    unfold stretch start before rule
    refine ⟨?_, ?_, ?_, ?_, ?_, ?_⟩ <;> exact List.mem_mergeSort.2 (by decide +kernel)
  have hrecord : ∃ done rest, stretch = done ++ rest ∧
      ((runAll move done start).2.store.noted? rule.source).isSome := by
    refine ⟨stretch, [], rfl, ?_⟩
    unfold stretch start before rule
    decide +kernel
  have htimes : admittedTimes rule.source stretch start =
      [0, 333333333, 666666666, 999999999] := by
    unfold stretch start before rule
    decide +kernel
  obtain ⟨-, -, -, hwindow, -⟩ :=
    admitted_packets_keep_rate 1 before stretch rule hrate hlive hrecord
  have hsecond := hwindow 0
  rw [htimes] at hsecond
  exact ⟨hrate, hlive, hrecord, htimes, hsecond⟩

end Service

end SourceFilter
