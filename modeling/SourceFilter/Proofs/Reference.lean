import SourceFilter.Proofs.Ruleset
import SourceFilter.Proofs.Session

/-!
# The reference machine

The reference machine judges packets by finite sets and finite maps: what is enforced, when the last
packet of each source was admitted, and the counts. It says what becomes of a packet without any
slots, keys or lengths, and bounds each map by the capacity on its own.
-/

namespace SourceFilter

/-- The state of the reference machine. -/
structure Reference (capacity : Nat) where
  /-- What is enforced. -/
  rules : Ruleset capacity := {}
  /-- When the last packet of a source was admitted. -/
  admitted : Finmap (fun _ : Address => UInt64) := ∅
  /-- The packets of each source. -/
  tallies : Finmap (fun _ : Address => Tally) := ∅
  /-- The packets of all sources. -/
  totals : Tally := {}

namespace Reference

variable {capacity : Nat}

/-- Whether a packet of a source with a rate may pass, and when its last packet was admitted from
now on. The packet comes too early when less than the whole part of a second's share has passed
since the last admitted one, and an older packet counts as simultaneous. The first packet may pass,
and its time is noted if there is room. -/
def consult (capacity : Nat) (rate : Rate) (source : Address) (now : UInt64)
    (admitted : Finmap fun _ : Address => UInt64) :
    Admission × Finmap fun _ : Address => UInt64 :=
  match admitted.lookup source with
  | some last =>
    if 1000000000 / rate.perSecond.toNat ≤ now.toNat - last.toNat then
      (.admitted, admitted.insert source now)
    else (.rejected, admitted)
  | none =>
    (.admitted,
      if admitted.keys.card < capacity then admitted.insert source now else admitted)

/-- Whether a packet may pass; a source without a rate is not asked about. -/
def ask (source : Address) (now : UInt64) (r : Reference capacity) :
    Admission × Reference capacity :=
  match r.rules.rates.lookup source with
  | none => (.admitted, r)
  | some rate =>
    let (admission, admitted) := consult capacity rate source now r.admitted
    (admission, { r with admitted := admitted })

/-- The counts after one more packet of a source. A new source is counted if there is room. -/
def tally (capacity : Nat) (source : Address) (verdict : Verdict)
    (tallies : Finmap fun _ : Address => Tally) : Finmap fun _ : Address => Tally :=
  match tallies.lookup source with
  | some counts => tallies.insert source (counts.count verdict)
  | none =>
    if tallies.keys.card < capacity then tallies.insert source (Tally.count verdict {})
    else tallies

/-- Judges a packet: it is dropped when it comes too early or a blocked prefix holds its source. -/
def judge (source : Address) (now : UInt64) (r : Reference capacity) :
    Verdict × Reference capacity :=
  let (admission, r) := r.ask source now
  let verdict : Verdict :=
    if admission = .rejected then .drop
    else if ∃ p ∈ r.rules.blocked, p.holds source then .drop
    else .pass
  (verdict, { r with
    tallies := tally capacity source verdict r.tallies
    totals := r.totals.count verdict })

instance : Judge (Reference capacity) where
  perform m r :=
    let (outcome, rules) := Store.perform m r.rules
    (outcome, { r with rules := rules })
  judge := judge

/-- Asking about a packet changes only the times of admitted packets. -/
theorem ask_eq (source : Address) (now : UInt64) (r : Reference capacity) :
    ∃ answer admitted, r.ask source now = (answer, { r with admitted := admitted }) := by
  unfold ask
  cases r.rules.rates.lookup source with
  | none => exact ⟨_, _, rfl⟩
  | some rate => exact ⟨_, _, rfl⟩

/-- A packet is dropped when it comes too early or a blocked prefix holds its source. Judging it
notes what asking the gate notes, and counts the verdict. -/
theorem judge_eq (source : Address) (now : UInt64) (r : Reference capacity) :
    let judged := r.judge source now
    judged.1 =
      (if (r.ask source now).1 = .rejected then .drop
        else if ∃ p ∈ r.rules.blocked, p.holds source then .drop
        else .pass) ∧
      judged.2 =
        { r with
          admitted := (r.ask source now).2.admitted
          tallies := tally capacity source judged.1 r.tallies
          totals := r.totals.count judged.1 } := by
  obtain ⟨answer, admitted, hask⟩ := r.ask_eq source now
  simp only [judge, hask, and_self]

/-- What is enforced does not change when a packet is judged. -/
theorem rules_judge (source : Address) (now : UInt64) (r : Reference capacity) :
    (r.judge source now).2.rules = r.rules := by
  rw [(r.judge_eq source now).2]

/-- Judging a packet notes what asking the gate notes. -/
theorem admitted_judge (r : Reference capacity) (source : Address) (now : UInt64) :
    (r.judge source now).2.admitted = (r.ask source now).2.admitted := rfl

/-- A mutation that takes effect is obeyed, and one that fails changes nothing. -/
theorem rules_perform (m : Mutation) (r : Reference capacity) :
    (Store.perform m r).2.rules =
      if (Store.perform m r).1.isOk then r.rules.obey m else r.rules := by
  have hrules : (Store.perform m r).2.rules = (Store.perform m r.rules).2 := rfl
  have houtcome : (Store.perform m r).1 = (Store.perform m r.rules).1 := rfl
  rw [hrules, houtcome]
  cases hm : r.rules.refusal? m with
  | none =>
    rw [Ruleset.perform_of_refusal?_eq_none hm]
    rfl
  | some e =>
    rw [Ruleset.perform_of_refusal?_eq_some hm]
    rfl

/-- The same holds for a call that may fail before. -/
theorem rules_perform_faulty (m : Mutation) (f : Faulty (Reference capacity)) :
    (Store.perform m f).2.store.rules =
      if (Store.perform m f).1.isOk then f.store.rules.obey m else f.store.rules := by
  cases hfault : f.faults f.calls m with
  | some e =>
    rw [Faulty.perform_of_fault hfault]
    rfl
  | none =>
    rw [Faulty.perform_of_no_fault hfault]
    exact rules_perform m f.store

/-- The mutations that take effect in a pass are obeyed in their order. -/
theorem rules_carryOut (changes : List Change) (book : Book) (f : Faulty (Reference capacity)) :
    (carryOut changes book f).2.2.store.rules =
      (((carryOut changes book f).1.filter Call.succeeded).map
        fun call => call.change.mutation).foldl Ruleset.obey f.store.rules := by
  induction changes generalizing book f with
  | nil => rfl
  | cons change changes ih =>
    have hrules := rules_perform_faulty change.mutation f
    rw [carryOut_cons]
    simp only [ih, hrules]
    cases houtcome : (Store.perform change.mutation f).1 with
    | ok => rfl
    | error e => rfl

/-- What the machine enforces after a move is what the effective mutations of a pass left. -/
theorem rules_move (m : Move) (s : Service (Reference capacity)) :
    (Service.move m s).2.store.rules =
      (Service.move m s).1.effects.foldl Ruleset.obey s.store.rules := by
  cases m with
  | pass clock faults raw =>
    simp only [Service.move, Service.pass, reconcileText, reconcile]
    cases s.book.interfaceFor (Config.parse raw) with
    | error e => rfl
    | ok binding => exact rules_carryOut _ _ _
  | packet source now => exact rules_judge source now s.store

/-- The same holds after a session. -/
theorem rules_run (moves : List Move) (s : Service (Reference capacity)) :
    (runAll Service.move moves s).2.store.rules =
      ((runAll Service.move moves s).1.flatMap Response.effects).foldl Ruleset.obey
        s.store.rules := by
  induction moves generalizing s with
  | nil => rfl
  | cons m moves ih =>
    have hrun := ih (Service.move m s).2
    rw [rules_move, ← List.foldl_append] at hrun
    exact hrun

end Reference

end SourceFilter
