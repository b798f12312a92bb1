import SourceFilter.Proofs.Refinement
import Mathlib.Algebra.GroupWithZero.Nat

/-!
# Packet accounting

A packet with a source is counted once for all sources and once for its own, under the verdict that
was returned. The sources have records in the order of their first packets, until there is no room
for one more; a source that came too late never gets a record, however often it is seen. Since a
record starts with the first packet of its source, it misses none of them.
-/

namespace SourceFilter

/-- The counts of packets that got these verdicts. -/
def Tally.ofVerdicts (verdicts : List Verdict) : Tally :=
  verdicts.foldl (fun t verdict => t.count verdict) {}

/-- A packet with a source, and what became of it. -/
@[ext]
structure Sighting where
  /-- The source. -/
  source : Address
  /-- What became of the packet. -/
  verdict : Verdict
  deriving DecidableEq, Repr

namespace Sighting

/-- The sources in the order of their first packets. -/
def firsts (seen : List Sighting) : List Address := (seen.map source).eraseDups

/-- The verdicts on the packets of one source. -/
def verdictsOn (seen : List Sighting) (a : Address) : List Verdict :=
  (seen.filter fun s => s.source = a).map verdict

/-- The sources that have records. -/
def kept (capacity : Nat) (seen : List Sighting) : List Address := (firsts seen).take capacity

/-- The record of a source that has one. -/
def record? (capacity : Nat) (seen : List Sighting) (a : Address) : Option Tally :=
  if a ∈ kept capacity seen then some (Tally.ofVerdicts (verdictsOn seen a)) else none

end Sighting

/-- What a service takes in. -/
inductive Input where
  /-- Makes a move. -/
  | move (m : Move)
  /-- Judges a frame that arrives at a time. -/
  | frame (bytes : List UInt8) (now : UInt64)

namespace Input

/-- The source of a packet. A pass has none, and neither has a frame without a complete header. -/
def source? : Input → Option Address
  | .move (.pass _ _ _) => none
  | .move (.packet source _) => some source
  | .frame bytes _ => Frame.source? bytes

/-- What is seen when an input gets an answer. -/
def sighting? (input : Input) : Response → Option Sighting
  | .pass _ _ => none
  | .packet verdict => input.source?.map fun source => ⟨source, verdict⟩

/-- What is seen in a run. -/
def sightings (inputs : List Input) (answers : List Response) : List Sighting :=
  (inputs.zipWith sighting? answers).filterMap id

end Input

/-- Takes one input. -/
def Service.take {capacity : Nat} :
    Input → Service (Tables capacity) → Response × Service (Tables capacity)
  | .move m, s => Service.move m s
  | .frame bytes now, s =>
    let (verdict, tables) := s.store.classifyFrame bytes now
    (.packet verdict, { s with store := tables })

namespace Tally

/-- One verdict more. -/
theorem ofVerdicts_concat (verdicts : List Verdict) (verdict : Verdict) :
    ofVerdicts (verdicts ++ [verdict]) = (ofVerdicts verdicts).count verdict :=
  List.foldl_concat _ _ _ _

end Tally

/-- What is seen of the first input comes first. -/
theorem Input.sightings_cons (input : Input) (inputs : List Input) (answer : Response)
    (answers : List Response) :
    sightings (input :: inputs) (answer :: answers) =
      (input.sighting? answer).toList ++ sightings inputs answers := by
  rw [sightings, List.zipWith_cons_cons, List.filterMap_cons]
  cases input.sighting? answer <;> rfl

namespace Sighting

variable {capacity : Nat} {seen : List Sighting} {a : Address}

/-- A source is in the order as soon as it sent a packet. -/
theorem mem_firsts : a ∈ firsts seen ↔ ∃ s ∈ seen, s.source = a := by
  rw [firsts, List.mem_eraseDups, List.mem_map]

/-- A new source comes last, and the others keep their places. -/
theorem firsts_concat (seen : List Sighting) (s : Sighting) :
    firsts (seen ++ [s]) =
      if s.source ∈ firsts seen then firsts seen else firsts seen ++ [s.source] := by
  have hfirsts : firsts (seen ++ [s]) =
      firsts seen ++ ([s.source].filter fun a => !(seen.map source).elem a).eraseDups := by
    rw [firsts, List.map_append, List.eraseDups_append]
    rfl
  have hmem : (seen.map source).elem s.source = decide (s.source ∈ firsts seen) := by
    rw [List.elem_eq_mem, firsts, decide_eq_decide, List.mem_eraseDups]
  rw [hfirsts, List.filter_singleton, hmem]
  by_cases h : s.source ∈ firsts seen
  · rw [decide_eq_true h, if_pos h]
    exact List.append_nil _
  · rw [decide_eq_false h, if_neg h]
    rfl

/-- No source has two places. -/
theorem nodup_firsts (seen : List Sighting) : (firsts seen).Nodup := by
  induction seen using List.reverseRecOn with
  | nil => exact List.nodup_nil
  | append_singleton seen s ih =>
    rw [firsts_concat]
    split
    next => exact ih
    next h => exact List.concat_eq_append ▸ ih.concat h

/-- A source gets a record with its first packet, if there is room, or never. -/
theorem kept_concat (seen : List Sighting) (s : Sighting) :
    kept capacity (seen ++ [s]) =
      if s.source ∈ kept capacity seen ∨ ¬ (kept capacity seen).length < capacity then
        kept capacity seen
      else kept capacity seen ++ [s.source] := by
  have hlength : (kept capacity seen).length = min capacity (firsts seen).length :=
    List.length_take
  by_cases hroom : (firsts seen).length < capacity
  · -- every source has a record so far
    have hall : kept capacity seen = firsts seen := List.take_of_length_le hroom.le
    rw [kept, firsts_concat, hall]
    by_cases hmem : s.source ∈ firsts seen
    · rw [if_pos hmem, if_pos (.inl hmem)]
      exact hall
    · rw [if_neg hmem, if_neg (not_or.2 ⟨hmem, not_not.2 hroom⟩)]
      refine List.take_of_length_le ?_
      rw [List.length_append, List.length_singleton]
      exact hroom
  · have hfull : ¬ (kept capacity seen).length < capacity := by omega
    rw [if_pos (.inr hfull), kept, firsts_concat]
    split
    next => rfl
    next => exact List.take_append_of_le_length (Nat.le_of_not_lt hroom)

/-- A packet is counted for its source. -/
theorem verdictsOn_concat_self (seen : List Sighting) (s : Sighting) :
    verdictsOn (seen ++ [s]) s.source = verdictsOn seen s.source ++ [s.verdict] := by
  rw [verdictsOn, List.filter_append, List.map_append, List.filter_singleton, decide_eq_true rfl]
  rfl

/-- It is not counted for another source. -/
theorem verdictsOn_concat_of_ne {s : Sighting} (h : a ≠ s.source) :
    verdictsOn (seen ++ [s]) a = verdictsOn seen a := by
  rw [verdictsOn, List.filter_append, List.map_append, List.filter_singleton,
    decide_eq_false h.symm]
  exact List.append_nil _

/-- There are no verdicts on a source that sent nothing. -/
theorem verdictsOn_eq_nil (h : a ∉ firsts seen) : verdictsOn seen a = [] := by
  rw [verdictsOn, List.map_eq_nil_iff, List.filter_eq_nil_iff]
  intro s hs hsource
  exact h (mem_firsts.2 ⟨s, hs, of_decide_eq_true hsource⟩)

/-- A packet is counted in the record of its source. A new record counts this packet alone. -/
theorem record?_concat_self (seen : List Sighting) (s : Sighting) :
    record? capacity (seen ++ [s]) s.source =
      match record? capacity seen s.source with
      | some t => some (t.count s.verdict)
      | none =>
        if (kept capacity seen).length < capacity then some (Tally.count s.verdict {})
        else none := by
  have hconcat := @kept_concat capacity seen s
  by_cases hkept : s.source ∈ kept capacity seen
  · rw [if_pos (.inl hkept)] at hconcat
    rw [record?, record?, hconcat, if_pos hkept, if_pos hkept, verdictsOn_concat_self,
      Tally.ofVerdicts_concat]
  · rw [record?, record?, if_neg hkept]
    by_cases hroom : (kept capacity seen).length < capacity
    · have hall : kept capacity seen = firsts seen := by
        rw [kept, List.length_take] at hroom
        exact List.take_of_length_le (by omega)
      rw [if_neg (not_or.2 ⟨hkept, not_not.2 hroom⟩)] at hconcat
      rw [hconcat, if_pos List.mem_concat_self, verdictsOn_concat_self,
        verdictsOn_eq_nil (hall ▸ hkept)]
      exact (if_pos hroom).symm
    · rw [if_pos (.inr hroom)] at hconcat
      rw [hconcat, if_neg hkept]
      exact (if_neg hroom).symm

/-- No source has two records. -/
theorem nodup_kept (capacity : Nat) (seen : List Sighting) : (kept capacity seen).Nodup :=
  (nodup_firsts seen).sublist (List.take_sublist _ _)

/-- The records of other sources stay. -/
theorem record?_concat_of_ne {s : Sighting} (h : a ≠ s.source) :
    record? capacity (seen ++ [s]) a = record? capacity seen a := by
  have hmem : a ∈ kept capacity (seen ++ [s]) ↔ a ∈ kept capacity seen := by
    rw [kept_concat]
    split
    next => exact Iff.rfl
    next => rw [List.mem_append, List.mem_singleton, or_iff_left h]
  rw [record?, record?, verdictsOn_concat_of_ne h]
  exact if_congr hmem rfl rfl

/-- A source has a record when it is among the first ones. -/
theorem record?_eq_some_iff {t : Tally} :
    record? capacity seen a = some t ↔
      a ∈ kept capacity seen ∧ Tally.ofVerdicts (verdictsOn seen a) = t := by
  rw [record?, Option.ite_none_right_eq_some, Option.some.injEq]

end Sighting

namespace Reference

variable {capacity : Nat} {seen : List Sighting} {tallies : Finmap fun _ : Address => Tally}

/-- There are as many records as sources that have one. -/
theorem card_keys (h : ∀ a, tallies.lookup a = Sighting.record? capacity seen a) :
    tallies.keys.card = (Sighting.kept capacity seen).length := by
  have hkeys : tallies.keys = (Sighting.kept capacity seen).toFinset := by
    ext a
    rw [Finmap.mem_keys, ← Finmap.lookup_isSome, h, List.mem_toFinset, Sighting.record?]
    split <;> simp [*]
  rw [hkeys]
  exact List.toFinset_card_of_nodup (Sighting.nodup_kept capacity seen)

/-- One packet more leaves the records of what was seen then. -/
theorem lookup_tally (h : ∀ a, tallies.lookup a = Sighting.record? capacity seen a) (s : Sighting)
    (a : Address) :
    (tally capacity s.source s.verdict tallies).lookup a =
      Sighting.record? capacity (seen ++ [s]) a := by
  by_cases ha : a = s.source
  · rw [ha, Sighting.record?_concat_self, ← h, ← card_keys h, tally]
    cases hlookup : tallies.lookup s.source with
    | some t => exact Finmap.lookup_insert tallies
    | none =>
      by_cases hroom : tallies.keys.card < capacity
      · simp only [if_pos hroom]
        exact Finmap.lookup_insert tallies
      · simp only [if_neg hroom]
        exact hlookup
  · rw [Sighting.record?_concat_of_ne ha, ← h, tally]
    cases tallies.lookup s.source with
    | some t => exact Finmap.lookup_insert_of_ne tallies ha
    | none =>
      by_cases hroom : tallies.keys.card < capacity
      · simp only [if_pos hroom]
        exact Finmap.lookup_insert_of_ne tallies ha
      · simp only [if_neg hroom]

end Reference

namespace Tables

variable {capacity : Nat} {t : Tables capacity} {seen : List Sighting}

/-- The counters are those of what was seen. -/
structure Counts (t : Tables capacity) (seen : List Sighting) : Prop where
  /-- All packets are counted. -/
  totals : t.totals = Tally.ofVerdicts (seen.map Sighting.verdict)
  /-- The packets of the first sources are counted for each of them. -/
  tallies : ∃ tallies, t.tallies.Records id tallies ∧
    ∀ a, tallies.lookup a = Sighting.record? capacity seen a

namespace Counts

/-- Nothing was seen at the start. -/
theorem empty : (Tables.empty : Tables capacity).Counts [] where
  totals := rfl
  tallies := by
    refine ⟨∅, SlotTable.Records.empty id, fun a => ?_⟩
    rw [Finmap.lookup_empty, Sighting.record?, Sighting.kept, Sighting.firsts, List.map_nil,
      List.eraseDups_nil, List.take_nil, if_neg List.not_mem_nil]

/-- A packet is counted. -/
theorem classify (h : t.Counts seen) (source : Address) (now : UInt64) :
    (t.classify source now).2.Counts (seen ++ [⟨source, (t.classify source now).1⟩]) := by
  obtain ⟨-, heq⟩ := t.classify_eq source now
  obtain ⟨tallies, hrecords, hlookup⟩ := h.tallies
  constructor
  · rw [heq, h.totals, List.map_append, List.map_singleton, Tally.ofVerdicts_concat]
  · rw [heq]
    exact ⟨_, Reference.record_tallies hrecords source _,
      Reference.lookup_tally hlookup ⟨source, (t.classify source now).1⟩⟩

/-- Other tables with the same counters count the same. -/
theorem of_counters (h : t.Counts seen) {t' : Tables capacity} (htallies : t'.tallies = t.tallies)
    (htotals : t'.totals = t.totals) : t'.Counts seen where
  totals := htotals.trans h.totals
  tallies := htallies ▸ h.tallies

/-- The records that are listed are those of the first sources. -/
theorem perm_sources (h : t.Counts seen) :
    ∃ listed, Counter.sources t = .ok listed ∧
      listed.Perm ((Sighting.kept capacity seen).map fun a =>
        ⟨a, Tally.ofVerdicts (Sighting.verdictsOn seen a)⟩) := by
  obtain ⟨tallies, hrecords, hlookup⟩ := h.tallies
  have hcontent (a : Address) (t : Tally) : (tallies.lookup a).map id = some t ↔
      a ∈ Sighting.kept capacity seen ∧ Tally.ofVerdicts (Sighting.verdictsOn seen a) = t := by
    rw [Option.map_id, id, hlookup, Sighting.record?_eq_some_iff]
  have hperm := (hrecords.files.perm_entries Address.toNat_injective
    (Sighting.nodup_kept capacity seen) hcontent).map fun entry =>
      (⟨BitVec.ofNat 32 entry.1, entry.2⟩ : SourceTally)
  simp only [List.map_map, Function.comp_def, BitVec.ofNat_toNat, BitVec.setWidth_eq] at hperm
  exact ⟨_, rfl, hperm⟩

end Counts

end Tables

namespace Service

variable {capacity : Nat} {s : Service (Tables capacity)} {seen : List Sighting}

/-- A pass changes no counter, whatever calls fail. -/
theorem pass_counters (s : Service (Tables capacity)) (clock : UInt64) (faults : Faults)
    (raw : String) :
    (s.pass clock faults raw).store.store.tallies = s.store.tallies ∧
      (s.pass clock faults raw).store.store.totals = s.store.totals := by
  have hkeeps : Keeps (fun _ => True) fun _ (t : Tables capacity) =>
      t.tallies = s.store.tallies ∧ t.totals = s.store.totals := by
    intro change book t _ h
    obtain ⟨-, htallies, htotals⟩ := t.perform_records change.mutation
    exact ⟨htallies.trans h.1, htotals.trans h.2⟩
  exact reconcile_invariant hkeeps.faulty (fun _ _ _ h => h) (fun _ _ => trivial) ⟨rfl, rfl⟩

/-- A frame without a source passes, and nothing changes. -/
theorem take_frame_of_none {bytes : List UInt8} (h : Frame.source? bytes = none) (now : UInt64)
    (s : Service (Tables capacity)) : s.take (.frame bytes now) = (.packet .pass, s) := by
  rw [take, Tables.classifyFrame, h]

/-- A frame with a source is judged as a packet of it. -/
theorem take_frame_of_some {bytes : List UInt8} {source : Address}
    (h : Frame.source? bytes = some source) (now : UInt64) (s : Service (Tables capacity)) :
    s.take (.frame bytes now) = Service.move (.packet source now) s := by
  rw [take, Tables.classifyFrame, h]
  rfl

/-- What is seen of an input is counted. -/
theorem counts_take (h : s.store.Counts seen) (input : Input) :
    (s.take input).2.store.Counts (seen ++ (input.sighting? (s.take input).1).toList) := by
  have hpacket (source : Address) (now : UInt64) :
      (Service.move (.packet source now) s).2.store.Counts
        (seen ++ [⟨source, (s.store.classify source now).1⟩]) := h.classify source now
  cases input with
  | move m =>
    cases m with
    | pass clock faults raw =>
      obtain ⟨htallies, htotals⟩ := s.pass_counters clock faults raw
      have hcounts := h.of_counters htallies htotals
      exact (List.append_nil seen).symm ▸ hcounts
    | packet source now => exact hpacket source now
  | frame bytes now =>
    cases hsource : Frame.source? bytes with
    | none =>
      rw [take_frame_of_none hsource, Input.sighting?, Input.source?, hsource, Option.map_none,
        Option.toList_none, List.append_nil]
      exact h
    | some source =>
      have hanswer : (Service.move (.packet source now) s).1 =
          .packet (s.store.classify source now).1 := rfl
      rw [take_frame_of_some hsource, hanswer, Input.sighting?, Input.source?, hsource,
        Option.map_some, Option.toList_some]
      exact hpacket source now

/-- What is seen in a run is counted. -/
theorem counts_run (h : s.store.Counts seen) (inputs : List Input) :
    (runAll take inputs s).2.store.Counts
      (seen ++ Input.sightings inputs (runAll take inputs s).1) := by
  induction inputs generalizing s seen with
  | nil => exact (List.append_nil seen).symm ▸ h
  | cons input inputs ih =>
    have hrest := ih (counts_take h input)
    rw [List.append_assoc, ← Input.sightings_cons] at hrest
    exact hrest

end Service

end SourceFilter
