import SourceFilter.Proofs.Accounting
import SourceFilter.Proofs.Spacing

/-!
# Sources do not interfere

What concerns a source is which mutations of the passes took effect, and when its own packets came.
As long as the sources that the gate is asked about are not more than there is room for, the time of
a source is noted whenever it has to be. What becomes of its packets is then determined by what
concerns it: it depends neither on the packets of others nor on where the records are filed.
-/

namespace SourceFilter

/-- What concerns one source. -/
inductive Concern where
  /-- A pass was made, and these mutations took effect. -/
  | pass (effects : List Mutation)
  /-- A packet of the source arrived at a time. -/
  | packet (now : UInt64)
  deriving DecidableEq, Repr

/-- What concerns a source in a move. -/
def Move.concern? (a : Address) : Move → Response → Option Concern
  | .pass _ _ _, answer => some (.pass answer.effects)
  | .packet source now, _ => if source = a then some (.packet now) else none

/-- What concerns a source in a session, in order. -/
def concerns (a : Address) (moves : List Move) (answers : List Response) : List Concern :=
  (moves.zipWith (Move.concern? a) answers).filterMap id

/-- The verdicts on the packets of a source in a session. -/
def verdicts (a : Address) (moves : List Move) (answers : List Response) : List Verdict :=
  Sighting.verdictsOn (Input.sightings (moves.map Input.move) answers) a

namespace Service

variable {capacity : Nat}

end Service

/-- What concerns a source in the first move comes first. -/
theorem concerns_cons (a : Address) (m : Move) (moves : List Move) (answer : Response)
    (answers : List Response) :
    concerns a (m :: moves) (answer :: answers) =
      (m.concern? a answer).toList ++ concerns a moves answers := by
  rw [concerns, List.zipWith_cons_cons, List.filterMap_cons]
  cases m.concern? a answer <;> rfl

/-- The first packet is judged first. -/
theorem verdicts_packet (a source : Address) (now : UInt64) (moves : List Move) (verdict : Verdict)
    (answers : List Response) :
    verdicts a (.packet source now :: moves) (.packet verdict :: answers) =
      if source = a then verdict :: verdicts a moves answers else verdicts a moves answers := by
  have hseen : Input.sightings ((Move.packet source now :: moves).map Input.move)
      (.packet verdict :: answers) =
      ⟨source, verdict⟩ :: Input.sightings (moves.map Input.move) answers := by
    rw [List.map_cons, Input.sightings_cons]
    rfl
  rw [verdicts, hseen, Sighting.verdictsOn, List.filter_cons]
  by_cases h : source = a
  · simp only [h, decide_true, if_true, List.map_cons]
    rfl
  · simp only [h, decide_false, Bool.false_eq_true, if_false]
    rfl

/-- No packet is judged in a pass. -/
theorem verdicts_pass (a : Address) (clock : UInt64) (faults : Faults) (raw : String)
    (moves : List Move) (result : Except ConfigError Report) (calls : List Call)
    (answers : List Response) :
    verdicts a (.pass clock faults raw :: moves) (.pass result calls :: answers) =
      verdicts a moves answers := by
  rw [verdicts, List.map_cons, Input.sightings_cons]
  rfl

/-- What one source can tell of the tables: what mutations made of them, and when its own last
packet was admitted. -/
structure Outlook (capacity : Nat) where
  /-- The tables without the records of packets. -/
  enforced : Tables capacity
  /-- When the last packet of the source was admitted. -/
  last : Option UInt64

namespace Outlook

variable {capacity : Nat}

/-- Whether a packet of the source may pass, and when the last one was admitted from now on. There
is always room for the time. -/
def ask (a : Address) (now : UInt64) (o : Outlook capacity) : Admission × Option UInt64 :=
  match o.enforced.interval? a, o.last with
  | none, last => (.admitted, last)
  | some _, none => (.admitted, some now)
  | some interval, some last =>
    match gate interval last now with
    | .admitted => (.admitted, some now)
    | .rejected => (.rejected, some last)

/-- What becomes of what concerns the source. -/
def react (a : Address) : Concern → Outlook capacity → Option Verdict × Outlook capacity
  | .pass effects, o => (none, { o with enforced := (runAll Store.perform effects o.enforced).2 })
  | .packet now, o =>
    let (admission, last) := o.ask a now
    let verdict : Verdict :=
      if admission = .rejected then .drop
      else if (o.enforced.longestMatch a).isSome then .drop
      else .pass
    (some verdict, { o with last := last })

/-- What concerns a source in a session explains the verdicts on it, and what it can tell in the
end. -/
structure Explained (a : Address) (before : Outlook capacity) (moves : List Move)
    (answers : List Response) (after : Outlook capacity) : Prop where
  /-- The verdicts are explained. -/
  verdicts : verdicts a moves answers =
    (runAll (react a) (concerns a moves answers) before).1.filterMap id
  /-- The end is explained. -/
  after : (runAll (react a) (concerns a moves answers) before).2 = after

namespace Explained

variable {a : Address} {before between after : Outlook capacity} {moves : List Move}
  {answers : List Response}

/-- Where nothing happens, nothing has to be explained. -/
theorem nil (o : Outlook capacity) : o.Explained a [] [] o := ⟨rfl, rfl⟩

/-- A pass is explained by the mutations that took effect. -/
theorem pass {answer : Response} {clock : UInt64} {faults : Faults} {raw : String}
    {result : Except ConfigError Report} {calls : List Call}
    (hanswer : answer = .pass result calls)
    (hreact : before.react a (.pass answer.effects) = (none, between))
    (h : between.Explained a moves answers after) :
    before.Explained a (.pass clock faults raw :: moves) (answer :: answers) after := by
  subst hanswer
  have hconcerns : concerns a (.pass clock faults raw :: moves) (.pass result calls :: answers) =
      .pass (Response.pass result calls).effects :: concerns a moves answers := concerns_cons ..
  constructor
  · rw [verdicts_pass, hconcerns, runAll, hreact, h.verdicts]
    rfl
  · rw [hconcerns, runAll, hreact]
    exact h.after

/-- A packet of the source is explained by its time. -/
theorem packet {verdict : Verdict} {now : UInt64}
    (hreact : before.react a (.packet now) = (some verdict, between))
    (h : between.Explained a moves answers after) :
    before.Explained a (.packet a now :: moves) (.packet verdict :: answers) after := by
  have hconcerns : concerns a (.packet a now :: moves) (.packet verdict :: answers) =
      .packet now :: concerns a moves answers := by
    rw [concerns_cons, Move.concern?, if_pos rfl]
    rfl
  constructor
  · rw [verdicts_packet, if_pos rfl, hconcerns, runAll, hreact, h.verdicts]
    rfl
  · rw [hconcerns, runAll, hreact]
    exact h.after

end Explained
end Outlook

namespace Reference

variable {capacity : Nat} {r : Reference capacity} {a : Address}

end Reference

namespace Service

variable {capacity : Nat} {s : Service (Tables capacity)} {b : Service (Reference capacity)}
  {a : Address}

end Service
end SourceFilter
