import SourceFilter.Proofs.Reference
import SourceFilter.Proofs.Snapshot

/-!
# The filter tables refine the reference machine

The tables follow the reference machine when they enforce its rules and note its times. A record is
never removed, so the tables of the records stay pristine and a new record starts afresh. A mutation
is then answered alike, the gate answers alike, and the tables follow the machine again; so they do
in every session, however much room there is. With room for fewer than 2^32 prefixes, a packet is
judged alike as well, and the tables represent all of the machine's state, its counts included.
-/

namespace SourceFilter

namespace SlotTable

variable {capacity : Nat} {V W : Type} [Inhabited V] {t : SlotTable capacity V} {f : W → V}
  {m : Finmap fun _ : Address => W} {source : Address} {w : W}

/-- The table records a map from sources. No record was ever removed. -/
structure Records (t : SlotTable capacity V) (f : W → V) (m : Finmap fun _ : Address => W) :
    Prop where
  /-- The values of the map are filed. -/
  files : t.Files BitVec.toNat fun source => (m.lookup source).map f
  /-- Nothing was removed. -/
  pristine : t.Pristine

namespace Records

/-- The empty table records the empty map. -/
theorem empty (f : W → V) :
    (SlotTable.empty : SlotTable capacity V).Records f (∅ : Finmap fun _ : Address => W) where
  files := SlotTable.Files.empty BitVec.toNat
  pristine := pristine_empty

/-- There are as many keys as recorded sources. -/
theorem size_eq (h : t.Records f m) : t.size = m.keys.card :=
  h.files.size_eq_card Address.toNat_injective fun _ => Finite.mem_keys_iff_isSome_map f

/-- A source with a record is found under its number. -/
theorem get?_of_lookup (h : t.Records f m) (hw : m.lookup source = some w) :
    t.get? source.toNat = some (f w) := by
  rw [h.files.get?_number, hw, Option.map_some]

/-- A source without a record is not found. -/
theorem get?_of_lookup_none (h : t.Records f m) (hnone : m.lookup source = none) :
    t.get? source.toNat = none := by
  rw [h.files.get?_number, hnone, Option.map_none]

/-- A table that differs in one record records the map that differs in it. -/
theorem revise (h : t.Records f m) {t' : SlotTable capacity V}
    (hr : t'.Revises t source.toNat (some (f w))) (hp : t'.Pristine) :
    t'.Records f (m.insert source w) := by
  refine ⟨?_, hp⟩
  rw [Finite.map_lookup_insert]
  exact h.files.revise Address.toNat_injective hr

/-- A record can be changed. -/
theorem modify (h : t.Records f m) (hw : m.lookup source = some w) (change : V → V) {w' : W}
    (hchange : change (f w) = f w') :
    (t.modify source.toNat change).Records f (m.insert source w') := by
  have hr := h.files.sound.revises_modify (h.get?_of_lookup hw) change
  rw [hchange] at hr
  exact h.revise hr (h.pristine.modify _ _)

/-- With room, a new record starts from a fresh value. -/
theorem claim_of_room (h : t.Records f m) (hnone : m.lookup source = none)
    (hroom : m.keys.card < capacity) (init : V → V) (hinit : init default = f w) :
    ∃ t', t.claim source.toNat init = (.created, t') ∧ t'.Records f (m.insert source w) := by
  obtain ⟨t', hclaim, hr, hp⟩ := h.files.sound.claim_of_room h.pristine
    (h.get?_of_lookup_none hnone) (h.size_eq ▸ hroom) init
  rw [hinit] at hr
  exact ⟨t', hclaim, h.revise hr hp⟩

/-- Without room, there is no new record. -/
theorem claim_of_full (h : t.Records f m) (hnone : m.lookup source = none)
    (hfull : ¬ m.keys.card < capacity) (init : V → V) :
    t.claim source.toNat init = (.full, t) :=
  SlotTable.claim_of_full (h.get?_of_lookup_none hnone) (h.size_eq ▸ Nat.le_of_not_lt hfull) init

end Records

end SlotTable

namespace Reference

variable {capacity : Nat} {source : Address}

/-- The gate of the tables is that of the machine. -/
theorem judge_stamps {stamps : Stamps capacity} {admitted : Finmap fun _ : Address => UInt64}
    (h : stamps.Records Stamp.mk admitted) (rate : Rate) (source : Address) (now : UInt64) :
    (stamps.judge rate.interval source now).1 = (consult capacity rate source now admitted).1 ∧
      (stamps.judge rate.interval source now).2.Records Stamp.mk
        (consult capacity rate source now admitted).2 := by
  unfold Stamps.judge consult
  cases hlast : admitted.lookup source with
  | some last =>
    have hget := h.get?_of_lookup hlast
    rw [SlotTable.claim_of_get?_eq_some hget]
    simp only [Stamps.consult?, hget, Stamp.consult, gate, rate.toNat_interval]
    by_cases hgate : 1000000000 / rate.perSecond.toNat ≤ now.toNat - last.toNat
    · simp only [if_pos hgate]
      exact ⟨rfl, h.modify hlast (fun _ => ⟨now⟩) rfl⟩
    · -- the record is written back as it was
      have hrecords := h.modify hlast (fun _ => ⟨last⟩) rfl
      rw [Finite.insert_eq_self hlast] at hrecords
      simp only [if_neg hgate]
      exact ⟨rfl, hrecords⟩
  | none =>
    by_cases hroom : admitted.keys.card < capacity
    · obtain ⟨stamps', hclaim, hrecords⟩ := h.claim_of_room hlast hroom (fun _ => ⟨now⟩) rfl
      rw [hclaim]
      simp only [if_pos hroom]
      exact ⟨trivial, hrecords⟩
    · rw [h.claim_of_full hlast hroom]
      simp only [if_neg hroom]
      exact ⟨trivial, h⟩

/-- The tallies of the tables are counted as those of the machine. -/
theorem record_tallies {counts : SlotTable capacity Tally}
    {tallies : Finmap fun _ : Address => Tally} (h : counts.Records id tallies)
    (source : Address) (verdict : Verdict) :
    ((counts.claim source.toNat id).2.modify source.toNat (Tally.count verdict)).Records id
      (tally capacity source verdict tallies) := by
  unfold tally
  cases htally : tallies.lookup source with
  | some one =>
    rw [SlotTable.claim_of_get?_eq_some (h.get?_of_lookup htally)]
    exact h.modify htally (Tally.count verdict) rfl
  | none =>
    by_cases hroom : tallies.keys.card < capacity
    · have hfresh : (id default : Tally) = id {} := rfl
      obtain ⟨counts', hclaim, hrecords⟩ := h.claim_of_room htally hroom id hfresh
      have hcount : Tally.count verdict (id {}) = id (Tally.count verdict {}) := rfl
      have hmodify := hrecords.modify (Finmap.lookup_insert tallies) (Tally.count verdict) hcount
      rw [Finmap.insert_insert] at hmodify
      rw [hclaim]
      simp only [if_pos hroom]
      exact hmodify
    · have hget := h.get?_of_lookup_none htally
      rw [h.claim_of_full htally hroom, SlotTable.modify_of_get?_eq_none hget]
      simp only [if_neg hroom]
      exact h

end Reference

namespace Tables

variable {capacity : Nat} {t : Tables capacity} {r : Reference capacity}

/-- The tables follow the reference machine. -/
structure Follows (t : Tables capacity) (r : Reference capacity) : Prop where
  /-- The rules are enforced. -/
  enforces : t.Enforces r.rules
  /-- The times of admitted packets are recorded. -/
  stamps : t.stamps.Records Stamp.mk r.admitted

/-- The tables represent a state of the reference machine. -/
structure Represents (t : Tables capacity) (r : Reference capacity) : Prop extends
    t.Follows r where
  /-- The packets of each source are recorded. -/
  tallies : t.tallies.Records id r.tallies
  /-- The packets of all sources are counted. -/
  totals : t.totals = r.totals

/-- The time that is noted of a source. -/
def noted? (t : Tables capacity) (source : Address) : Option UInt64 :=
  (t.stamps.get? source.toNat).map Stamp.time

/-- The time of the last admitted packet is the noted one, unless that is the greatest number. -/
theorem lastAdmitted?_eq (t : Tables capacity) (source : Address) :
    t.lastAdmitted? source = (t.noted? source).filter fun time => time.toNat < 2 ^ 64 - 1 := by
  rw [lastAdmitted?, noted?]
  cases t.stamps.get? source.toNat with
  | none => rfl
  | some stamp =>
    obtain ⟨time⟩ := stamp
    have hset : (Stamp.mk time != Stamp.unset) = decide (time.toNat < 2 ^ 64 - 1) := by
      have hlt := time.toNat_lt
      rw [Bool.eq_iff_iff, bne_iff_ne, decide_eq_true_iff, ne_eq, Stamp.unset, Stamp.mk.injEq,
        ← UInt64.toNat_inj]
      have hunset : (UInt64.ofNat (UInt64.size - 1)).toNat = 2 ^ 64 - 1 := rfl
      rw [hunset]
      omega
    rw [Option.map_some, Option.filter_some, Option.filter_some, hset]
    split <;> rfl

namespace Follows

/-- Tables without entries follow the machine at its start. -/
theorem empty : (Tables.empty : Tables capacity).Follows {} where
  enforces := Enforces.empty
  stamps := SlotTable.Records.empty Stamp.mk

/-- The noted time of a source is that of the machine. -/
theorem noted?_eq (h : t.Follows r) (source : Address) :
    t.noted? source = r.admitted.lookup source := by
  rw [noted?, h.stamps.files.get?_number, Option.map_map]
  exact Option.map_id'

/-- The gate lets the same packets through and notes the same times. -/
theorem admission (h : t.Follows r) (source : Address) (now : UInt64) :
    (t.admission source now).1 = (r.ask source now).1 ∧
      (t.admission source now).2.stamps.Records Stamp.mk (r.ask source now).2.admitted := by
  have hinterval := h.enforces.limits.interval?_eq source
  unfold Tables.admission Reference.ask
  cases hrate : r.rules.rates.lookup source with
  | none =>
    rw [hrate, Option.map_none] at hinterval
    rw [hinterval]
    exact ⟨rfl, h.stamps⟩
  | some rate =>
    rw [hrate, Option.map_some] at hinterval
    rw [hinterval]
    exact Reference.judge_stamps h.stamps rate source now

/-- Tables that follow the machine do so after a packet. -/
theorem classify (h : t.Follows r) (source : Address) (now : UInt64) :
    (t.classify source now).2.Follows (r.judge source now).2 := by
  obtain ⟨-, heq⟩ := t.classify_eq source now
  constructor
  · rw [Reference.rules_judge]
    exact h.enforces.classify source now
  · rw [Reference.admitted_judge, heq]
    exact (h.admission source now).2

/-- With room for fewer than 2^32 prefixes, the verdicts are those of the machine. -/
theorem verdict_eq (h : t.Follows r) (hcapacity : capacity < 2 ^ 32) (source : Address)
    (now : UInt64) : (t.classify source now).1 = (r.judge source now).1 := by
  obtain ⟨hverdict, -⟩ := t.classify_eq source now
  obtain ⟨hjudged, -⟩ := r.judge_eq source now
  have hmatch := h.enforces.blocks.isSome_longestMatch hcapacity source
  simp only [hverdict, hjudged, (h.admission source now).1, hmatch]

end Follows

namespace Represents

/-- Tables without entries represent the machine at its start. -/
theorem empty : (Tables.empty : Tables capacity).Represents {} where
  toFollows := .empty
  tallies := SlotTable.Records.empty id
  totals := rfl

/-- With room for fewer than 2^32 prefixes, a packet is judged alike, and the counts and times that
are left are represented again. -/
theorem classify (h : t.Represents r) (hcapacity : capacity < 2 ^ 32) (source : Address)
    (now : UInt64) :
    (t.classify source now).1 = (r.judge source now).1 ∧
      (t.classify source now).2.Represents (r.judge source now).2 := by
  have hverdict := h.verdict_eq hcapacity source now
  obtain ⟨-, hafter⟩ := t.classify_eq source now
  obtain ⟨-, hjudged⟩ := r.judge_eq source now
  refine ⟨hverdict, h.toFollows.classify source now, ?_, ?_⟩
  · rw [hafter, hjudged, hverdict]
    exact Reference.record_tallies h.tallies source _
  · rw [hafter, hjudged, hverdict]
    exact congrArg (Tally.count _) h.totals

end Represents

/-- A mutation is answered alike. -/
theorem alike_follows :
    Alike fun (t : Tables capacity) (r : Reference capacity) => t.Follows r := by
  intro m t r h
  obtain ⟨hstamps, -⟩ := t.perform_records m
  have houtcome : (Store.perform m r).1 = (Store.perform m r.rules).1 := rfl
  have hafter : (Store.perform m r).2 = { r with rules := (Store.perform m r.rules).2 } := rfl
  rw [houtcome, hafter]
  cases hm : r.rules.refusal? m with
  | none =>
    obtain ⟨t', hperform, henforces⟩ := h.enforces.perform_of_refusal?_eq_none hm
    rw [hperform] at hstamps ⊢
    rw [Ruleset.perform_of_refusal?_eq_none hm]
    exact ⟨rfl, henforces, hstamps ▸ h.stamps⟩
  | some e =>
    rw [h.enforces.perform_of_refusal?_eq_some hm, Ruleset.perform_of_refusal?_eq_some hm]
    exact ⟨rfl, h⟩

/-- It does not touch the counts on either side. -/
theorem alike_represents :
    Alike fun (t : Tables capacity) (r : Reference capacity) => t.Represents r := by
  intro m t r h
  obtain ⟨houtcome, hfollows⟩ := alike_follows m t r h.toFollows
  obtain ⟨-, htallies, htotals⟩ := t.perform_records m
  exact ⟨houtcome, hfollows, htallies ▸ h.tallies, htotals.trans h.totals⟩

end Tables

namespace Service

/-- The service over tables stands for the service over the reference machine, as far as passes and
the gate are concerned. -/
abbrev StandsFor {capacity : Nat} (a : Service (Tables capacity))
    (b : Service (Reference capacity)) : Prop :=
  a.Related Tables.Follows b

namespace StandsFor

variable {capacity : Nat} {a : Service (Tables capacity)} {b : Service (Reference capacity)}

/-- A move keeps this. -/
theorem move (h : a.StandsFor b) (m : Move) :
    (Service.move m a).2.StandsFor (Service.move m b).2 := by
  cases m with
  | pass clock faults raw => exact (Tables.alike_follows.pass h clock faults raw).2
  | packet source now => exact ⟨h.book, h.store.classify source now⟩

/-- So does a run. -/
theorem run (h : a.StandsFor b) (moves : List Move) :
    (runAll Service.move moves a).2.StandsFor (runAll Service.move moves b).2 :=
  runAll_related (R := StandsFor) (fun m _ _ h => h.move m) h moves

/-- At the start. -/
theorem start :
    StandsFor { store := (Tables.empty : Tables capacity) }
      { store := ({} : Reference capacity) } :=
  ⟨rfl, Tables.Follows.empty⟩

/-- The rules are those of the machine. -/
theorem mem_rateRules (h : a.StandsFor b) {rule : RateRule} :
    rule ∈ a.store.rateRules ↔ b.store.rules.rates.lookup rule.source = some rule.rate :=
  h.store.enforces.limits.mem_rateRules

/-- There are not more rules than there is room for. -/
theorem card_rates_le (h : a.StandsFor b) : b.store.rules.rates.keys.card ≤ capacity := by
  rw [← h.store.enforces.limits.size_eq]
  exact h.store.enforces.limits.sound.bounded

/-- A source has a record when the machine has a time of it. -/
theorem stamps_eq (h : a.StandsFor b) (source : Address) :
    a.store.stamps.get? source.toNat = (b.store.admitted.lookup source).map Stamp.mk :=
  h.store.stamps.files.get?_number source

/-- The noted time of a source is that of the machine. -/
theorem noted?_eq (h : a.StandsFor b) (source : Address) :
    a.store.noted? source = b.store.admitted.lookup source := h.store.noted?_eq source

/-- The gate answers as the machine does. -/
theorem admission_eq (h : a.StandsFor b) (source : Address) (now : UInt64) :
    (a.store.admission source now).1 = (b.store.ask source now).1 :=
  (h.store.admission source now).1

end StandsFor

/-- The filter tables refine the reference machine. In every session, with any faults of the passes
and packets in any order, the service over tables answers as the service over the machine, and knows
the same. The machine enforces what the effective mutations of the passes left, and so do the
tables; the times of admitted packets, as far as the tables can tell them, and all counts are those
of the machine. There must be room for fewer than 2^32 prefixes, so that the tables can count them.
-/
theorem tables_refine_reference {capacity : Nat} (hcapacity : capacity < 2 ^ 32)
    (moves : List Move) :
    let run := runAll move moves { store := (Tables.empty : Tables capacity) }
    let ideal := runAll move moves { store := ({} : Reference capacity) }
    let tables := run.2.store
    let machine := ideal.2.store
    run.1 = ideal.1 ∧ run.2.book = ideal.2.book ∧
      machine.rules = (run.1.flatMap Response.effects).foldl Ruleset.obey {} ∧
      (∀ p, p ∈ tables.blacklist ↔ p ∈ machine.rules.blocked) ∧
      (∀ rule, rule ∈ tables.rateRules ↔
        machine.rules.rates.lookup rule.source = some rule.rate) ∧
      (∀ source, tables.lastAdmitted? source =
        (machine.admitted.lookup source).filter fun time => time.toNat < 2 ^ 64 - 1) ∧
      tables.totals = machine.totals ∧
      (∀ source, tables.tallies.get? source.toNat = machine.tallies.lookup source) := by
  intro run ideal tables machine
  obtain ⟨hanswers, hbook, hrepresents⟩ := Tables.alike_represents.run
    (fun source now t r h => h.classify hcapacity source now) Tables.Represents.empty moves
  have hrules : machine.rules = (ideal.1.flatMap Response.effects).foldl Ruleset.obey {} :=
    Reference.rules_run moves { store := ({} : Reference capacity) }
  have henforces : tables.Enforces machine.rules := hrepresents.enforces
  have hsame : run.1 = ideal.1 := hanswers
  refine ⟨hsame, hbook, ?_, fun p => henforces.blocks.mem_blacklist,
    fun rule => henforces.limits.mem_rateRules, fun source => ?_, hrepresents.totals,
    fun source => ?_⟩
  · rw [hsame]
    exact hrules
  · have hnoted : tables.noted? source = machine.admitted.lookup source :=
      hrepresents.noted?_eq source
    rw [tables.lastAdmitted?_eq, hnoted]
  · have hget : tables.tallies.get? source.toNat = (machine.tallies.lookup source).map id :=
      hrepresents.tallies.files.get?_number source
    rw [hget, Option.map_id, id]

/-- A source with a rule sends a packet too early, and a blocked one sends a packet for which there
is no room in the counts. -/
theorem tables_refine_reference_when_full :
    let moves := [Move.pass 1 (fun _ _ => none)
        "interface=e\nip_blacklist=10.0.0.0/8,11.0.0.0/8\nip_rate_limits=192.0.2.1:1",
      .packet (Address.ofOctets 192 0 2 1) 0, .packet (Address.ofOctets 192 0 2 1) 5,
      .packet (Address.ofOctets 10 1 2 3) 6]
    let run := runAll move moves { store := (Tables.empty : Tables 1) }
    let ideal := runAll move moves { store := ({} : Reference 1) }
    1 < 2 ^ 32 ∧ run.1 = ideal.1 ∧ run.2.store.totals = ⟨2, 1⟩ ∧ ideal.2.store.totals = ⟨2, 1⟩ ∧
      ideal.2.store.tallies.lookup (Address.ofOctets 192 0 2 1) = some ⟨1, 1⟩ := by
  intro moves run ideal
  have hcapacity : 1 < 2 ^ 32 := by decide
  obtain ⟨hanswers, -, -, -, -, -, htotals, htallies⟩ := tables_refine_reference hcapacity moves
  have hcounted : run.2.store.totals = ⟨2, 1⟩ := by decide +kernel
  have htally : run.2.store.tallies.get? (Address.ofOctets 192 0 2 1).toNat = some ⟨1, 1⟩ := by
    decide +kernel
  exact ⟨hcapacity, hanswers, hcounted, htotals.symm.trans hcounted,
    (htallies _).symm.trans htally⟩

end Service

end SourceFilter
