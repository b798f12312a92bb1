import SourceFilter.Proofs.Binding
import SourceFilter.Proofs.Midway
import SourceFilter.Proofs.Snapshot

/-!
# Generation numbers

A pass sets the generation number with its last call. What it sets is greater than every number that
was set before, whatever the clock says, until the greatest number of 64 bits is reached, which then
stays. If the call fails, or the pass is turned down, the number stays what it was, in the tables
and in the book. So the two are always the same, and the number that was set last is in force.
-/

namespace SourceFilter

/-- The step from one generation number to a later one: up, or from the greatest number of 64 bits
to itself. -/
def Rises (earlier later : UInt64) : Prop :=
  earlier < later ∨ earlier.toNat + 1 = UInt64.size ∧ later = earlier

namespace Rises

variable {a b c : UInt64}

/-- No step leads down. -/
theorem le (h : Rises a b) : a ≤ b := by
  rcases h with h | ⟨-, h⟩
  · exact UInt64.le_of_lt h
  · rw [h]
    exact UInt64.le_refl a

/-- Two steps lead up as one does. -/
theorem trans (hab : Rises a b) (hbc : Rises b c) : Rises a c := by
  rcases hab with hab | ⟨-, rfl⟩
  · exact .inl (UInt64.lt_of_lt_of_le hab hbc.le)
  · exact hbc

end Rises

/-- The successor is one more, but the greatest number has none. -/
theorem toNat_successor (n : UInt64) :
    (successor n).toNat = min (n.toNat + 1) (UInt64.size - 1) := by
  have hn := n.toNat_lt_size
  rw [successor]
  split
  next h =>
    have hone : (n + 1).toNat = n.toNat + 1 := by
      rw [UInt64.toNat_add]
      exact Nat.mod_eq_of_lt h
    omega
  next h => omega

/-- The next generation number is the time of the clock, or the successor of the previous number if
this is greater. -/
theorem toNat_nextGeneration (clock previous : UInt64) :
    (nextGeneration clock previous).toNat =
      max clock.toNat (min (previous.toNat + 1) (UInt64.size - 1)) := by
  rw [nextGeneration, UInt64.toNat_max, toNat_successor]

/-- The next generation number is a step up. -/
theorem rises_nextGeneration (clock previous : UInt64) :
    Rises previous (nextGeneration clock previous) := by
  have hnext := toNat_nextGeneration clock previous
  have hclock := clock.toNat_lt_size
  have hprevious := previous.toNat_lt_size
  by_cases hlast : previous.toNat + 1 = UInt64.size
  · refine .inr ⟨hlast, UInt64.toNat_inj.1 ?_⟩
    omega
  · refine .inl (UInt64.lt_iff_toNat_lt.2 ?_)
    omega

/-- The generation number that a pass set. -/
def Response.generation? : Response → Option UInt64
  | .pass (.ok report) _ => report.generation
  | .pass (.error _) _ => none
  | .packet _ => none

/-- The generation numbers that were set, in order. -/
def published (responses : List Response) : List UInt64 :=
  responses.filterMap Response.generation?

section Published

variable {σ : Type}

/-- The report of a pass has the next generation number if one of its calls set it. -/
theorem generation_report [Store σ] {clock : UInt64} {config : Config} {book : Book} {s : σ}
    {report : Report} (hok : (reconcile clock config book s).result = .ok report) :
    report.generation =
      if (reconcile clock config book s).calls.any Call.stamps then
        some (nextGeneration clock book.generation)
      else none := by
  unfold reconcile at hok ⊢
  cases hinterface : book.interfaceFor config with
  | error e =>
    rw [hinterface] at hok
    cases hok
  | ok binding =>
    rw [hinterface] at hok
    cases hok
    rfl

variable [Judge σ]

/-- A move leaves the generation number that it set, or else the one that was there. -/
theorem generation_move (m : Move) (s : Service σ) :
    (Service.move m s).2.book.generation =
      (Service.move m s).1.generation?.getD s.book.generation := by
  cases m with
  | packet source now => rfl
  | pass clock faults raw =>
    let f : Faulty σ := { store := s.store, faults := faults }
    have hbook := generation_reconcile clock (Config.parse raw) s.book f
    have hset : (Service.move (.pass clock faults raw) s).1.generation? =
        (reconcile clock (Config.parse raw) s.book f).result.toOption.bind Report.generation := by
      change Response.generation? (.pass (reconcile clock (Config.parse raw) s.book f).result _) = _
      cases (reconcile clock (Config.parse raw) s.book f).result <;> rfl
    rw [hset]
    exact hbook

/-- What a move sets is a step up from what was there. -/
theorem rises_move {m : Move} {s : Service σ} {n : UInt64}
    (h : (Service.move m s).1.generation? = some n) : Rises s.book.generation n := by
  cases m with
  | packet source now => cases h
  | pass clock faults raw =>
    cases hresult : (s.pass clock faults raw).result with
    | error e =>
      rw [Service.move_of_error hresult] at h
      cases h
    | ok report =>
      have hset : report.generation = some n := by
        rw [Service.move, hresult] at h
        exact h
      have hreport := generation_report hresult
      rw [hset] at hreport
      split at hreport
      next =>
        cases hreport
        exact rises_nextGeneration clock s.book.generation
      next => cases hreport

/-- The numbers that moves set come one after the other. -/
theorem published_cons (m : Move) (moves : List Move) (s : Service σ) :
    published (runAll Service.move (m :: moves) s).1 =
      (Service.move m s).1.generation?.toList ++
        published (runAll Service.move moves (Service.move m s).2).1 := by
  change published ((Service.move m s).1 :: _) = _
  rw [published, List.filterMap_cons]
  cases (Service.move m s).1.generation? <;> rfl

/-- Every number that is set in a session is a step up from each one before it. -/
theorem pairwise_published (moves : List Move) (s : Service σ) :
    (s.book.generation :: published (runAll Service.move moves s).1).Pairwise Rises := by
  induction moves generalizing s with
  | nil => exact List.pairwise_singleton _ _
  | cons m moves ih =>
    have hafter := generation_move m s
    have hrest := ih (Service.move m s).2
    rw [published_cons]
    cases hset : (Service.move m s).1.generation? with
    | none =>
      rw [hset] at hafter
      rw [hafter] at hrest
      exact hrest
    | some n =>
      have hrises := rises_move hset
      rw [hset] at hafter
      rw [hafter] at hrest
      refine List.pairwise_cons.2 ⟨fun later hlater => ?_, hrest⟩
      rcases List.mem_cons.1 hlater with rfl | hlater
      · exact hrises
      · exact hrises.trans ((List.pairwise_cons.1 hrest).1 later hlater)

/-- After a session the number that was set last is in force, or the one from before. -/
theorem generation_after (moves : List Move) (s : Service σ) :
    (runAll Service.move moves s).2.book.generation =
      (published (runAll Service.move moves s).1).getLast?.getD s.book.generation := by
  induction moves generalizing s with
  | nil => rfl
  | cons m moves ih =>
    have hlast := ih (Service.move m s).2
    rw [generation_move] at hlast
    rw [published_cons]
    refine hlast.trans ?_
    cases (Service.move m s).1.generation? with
    | none => rfl
    | some n =>
      change _ = (n :: published _).getLast?.getD _
      rw [List.getLast?_cons]
      rfl

/-- No number that was set is greater than the one in force. -/
theorem le_generation_after {moves : List Move} {s : Service σ} {n : UInt64}
    (h : n ∈ published (runAll Service.move moves s).1) :
    n ≤ (runAll Service.move moves s).2.book.generation := by
  have hall := (List.pairwise_cons.1 (pairwise_published moves s)).2
  rw [generation_after]
  have hlast := List.getLast?_eq_some_getLast (List.ne_nil_of_mem h)
  obtain ⟨front, hfront⟩ := List.getLast?_eq_some_iff.1 hlast
  rw [hlast, Option.getD_some]
  generalize List.getLast _ _ = last at hfront ⊢
  rw [hfront] at h hall
  rcases List.mem_append.1 h with hn | hn
  · have hrises := (List.pairwise_append.1 hall).2.2 n hn last (List.mem_singleton_self last)
    exact hrises.le
  · exact UInt64.le_of_eq (List.mem_singleton.1 hn)

end Published

/-- If only the last call is about the generation number, it alone decides whether it is set. -/
theorem any_stamps_append {before : List Call}
    (hother : ∀ call ∈ before, call.change.part ≠ .generation) (generation : UInt64)
    (outcome : Except StoreError Unit) :
    (before ++ [⟨.stamp generation, outcome⟩] : List Call).any Call.stamps = outcome.isOk := by
  have hbefore : before.any Call.stamps = false := by
    rw [List.any_eq_false]
    intro call hcall
    simp only [Call.stamps, hother call hcall, decide_false, Bool.false_and, Bool.false_eq_true,
      not_false_iff]
  have hlast : ([⟨.stamp generation, outcome⟩] : List Call).any Call.stamps = outcome.isOk := by
    cases outcome <;> rfl
  rw [List.any_append, hbefore, hlast, Bool.false_or]

namespace Faulty

variable {σ : Type} [Store σ]

/-- A call more is counted, and the same calls fail as before. -/
theorem calls_perform (m : Mutation) (f : Faulty σ) :
    (Store.perform m f).2.calls = f.calls + 1 ∧ (Store.perform m f).2.faults = f.faults := by
  cases hfault : f.faults f.calls m with
  | some e =>
    rw [perform_of_fault hfault]
    exact ⟨rfl, rfl⟩
  | none =>
    rw [perform_of_no_fault hfault]
    exact ⟨rfl, rfl⟩

/-- Every change of a plan is one call. -/
theorem calls_carryOut (changes : List Change) (book : Book) (f : Faulty σ) :
    (carryOut changes book f).2.2.calls = f.calls + changes.length ∧
      (carryOut changes book f).2.2.faults = f.faults := by
  induction changes generalizing book f with
  | nil => exact ⟨rfl, rfl⟩
  | cons change changes ih =>
    obtain ⟨hcalls, hfaults⟩ := calls_perform change.mutation f
    obtain ⟨hcalls', hfaults'⟩ := ih (book.hear change (Store.perform change.mutation f).1)
      (Store.perform change.mutation f).2
    rw [carryOut_cons, List.length_cons]
    refine ⟨hcalls'.trans ?_, hfaults'.trans hfaults⟩
    omega

end Faulty

section Tables

variable {capacity : Nat}

/-- Only mutations of the generation number change it. -/
theorem Tables.perform_generation {m : Mutation} (hm : m.part ≠ .generation)
    (t : Tables capacity) : (Store.perform m t).2.generation = t.generation := by
  rcases t.perform_cases m with ⟨-, blocked, counts, lengths, ht⟩ | ⟨-, rates, ht⟩ | ⟨hpart, -⟩
  · rw [ht]
  · rw [ht]
  · exact absurd hpart hm

/-- Only changes of the generation number change that of the book. -/
theorem Book.learn_generation {change : Change} (hc : change.part ≠ .generation) (book : Book) :
    (book.learn change).generation = book.generation := by
  cases change with
  | stamp generation => exact absurd rfl hc
  | _ => rfl

/-- Every call keeps the generation number of the book that of the tables. -/
theorem Book.keeps_generation :
    Keeps (fun _ => True) fun book (t : Tables capacity) => t.generation = book.generation := by
  intro change book t _ h
  by_cases hpart : change.part = .generation
  · cases change with
    | stamp generation => rfl
    | _ => cases hpart
  · rw [Tables.perform_generation hpart, Book.hear]
    split
    · exact h.trans (Book.learn_generation hpart book).symm
    · exact h

namespace Service

variable {s : Service (Tables capacity)}

/-- A pass keeps the generation number of the book that of the tables. -/
theorem generation_pass (h : s.store.generation = s.book.generation) (clock : UInt64)
    (faults : Faults) (raw : String) :
    (s.pass clock faults raw).store.store.generation =
      (s.pass clock faults raw).book.generation := by
  let f : Faulty (Tables capacity) := { store := s.store, faults := faults }
  exact reconcile_invariant (s := f) Book.keeps_generation.faulty (fun _ _ _ hkept => hkept)
    (fun _ _ => trivial) h

/-- A move keeps the generation number of the book that of the tables. -/
theorem live_generation_move (h : s.store.generation = s.book.generation) (m : Move) :
    (move m s).2.store.generation = (move m s).2.book.generation := by
  cases m with
  | pass clock faults raw => exact generation_pass h clock faults raw
  | packet source now =>
    obtain ⟨-, heq⟩ := s.store.classify_eq source now
    have hsame : (s.store.classify source now).2.generation = s.store.generation := by rw [heq]
    exact hsame.trans h

/-- The last call of a pass over tables is the one that sets the generation number. It fails only if
it does not reach the tables. -/
theorem last_call_pass {clock : UInt64} {faults : Faults} {raw : String} {report : Report}
    (hok : (s.pass clock faults raw).result = .ok report) :
    let next := nextGeneration clock s.book.generation
    ∃ before outcome,
      (s.pass clock faults raw).calls = before ++ [⟨.stamp next, outcome⟩] ∧
      (∀ call ∈ before, call.change.part ≠ .generation) ∧
      outcome = match faults before.length (.stamp next) with
        | none => .ok ()
        | some e => .error e := by
  intro next
  let f : Faulty (Tables capacity) := { store := s.store, faults := faults }
  obtain ⟨changes, hplan, hother⟩ := s.book.plan_eq_append_stamp clock (Config.parse raw)
  obtain ⟨hcalls, -⟩ := reconcile_eq_carryOut hok
  rw [hplan, carryOut_append] at hcalls
  have hchanges : (carryOut changes s.book f).1.map Call.change = changes :=
    map_change_carryOut changes s.book f
  have hlength : (carryOut changes s.book f).1.length = changes.length := by
    rw [← List.length_map Call.change, hchanges]
  obtain ⟨hcount, hfaults⟩ := Faulty.calls_carryOut changes s.book f
  have hnumber : (carryOut changes s.book f).2.2.calls = (carryOut changes s.book f).1.length := by
    rw [hcount, hlength]
    exact Nat.zero_add _
  refine ⟨_, _, hcalls, fun call hcall => hother _ (hchanges ▸ List.mem_map_of_mem hcall), ?_⟩
  have hfault : (carryOut changes s.book f).2.2.faults (carryOut changes s.book f).2.2.calls
      (.stamp next) = faults (carryOut changes s.book f).1.length (.stamp next) := by
    rw [hnumber, hfaults]
  change (Store.perform (.stamp next) (carryOut changes s.book f).2.2).1 = _
  cases h : faults (carryOut changes s.book f).1.length (.stamp next) with
  | some e => rw [Faulty.perform_of_fault (hfault.trans h)]
  | none =>
    rw [Faulty.perform_of_no_fault (hfault.trans h)]
    rfl

/-- A pass whose last call reaches the tables reports the next generation number and leaves it in
the book. If that call fails, no number is reported and the book keeps its own. -/
theorem generation_made {clock : UInt64} {faults : Faults} {raw : String} {report : Report}
    (hok : (s.pass clock faults raw).result = .ok report) :
    let p := s.pass clock faults raw
    let next := nextGeneration clock s.book.generation
    ∃ before outcome,
      p.calls = before ++ [⟨.stamp next, outcome⟩] ∧
      (∀ call ∈ before, call.change.part ≠ .generation) ∧
      (faults before.length (.stamp next) = none →
        outcome = .ok () ∧ report.generation = some next ∧ p.book.generation = next) ∧
      ∀ e, faults before.length (.stamp next) = some e →
        outcome = .error e ∧ report.generation = none ∧ p.book.generation = s.book.generation := by
  intro p next
  obtain ⟨before, outcome, hcalls, hother, houtcome⟩ := last_call_pass hok
  have hreport : report.generation = if p.calls.any Call.stamps then some next else none :=
    generation_report hok
  have hbook : p.book.generation =
      (p.result.toOption.bind Report.generation).getD s.book.generation :=
    generation_reconcile clock (Config.parse raw) s.book _
  have hresult : p.result = .ok report := hok
  rw [hresult] at hbook
  rw [hcalls, any_stamps_append hother] at hreport
  refine ⟨before, outcome, hcalls, hother, fun hnone => ?reached, fun e hsome => ?failed⟩
  case reached =>
    rw [hnone] at houtcome
    rw [houtcome] at hreport
    have hset : report.generation = some next := hreport
    refine ⟨houtcome, hset, hbook.trans ?_⟩
    exact congrArg (Option.getD · s.book.generation) hset
  case failed =>
    rw [hsome] at houtcome
    rw [houtcome] at hreport
    have hset : report.generation = none := hreport
    refine ⟨houtcome, hset, hbook.trans ?_⟩
    exact congrArg (Option.getD · s.book.generation) hset

/-- The generation number of the book is that of the tables in every session. -/
theorem live_generation (capacity : Nat) (moves : List Move) :
    let s := (runAll move moves { store := (Tables.empty : Tables capacity) }).2
    s.store.generation = s.book.generation := by
  let Live (s : Service (Tables capacity)) : Prop := s.store.generation = s.book.generation
  have hstep (m : Move) (s : Service (Tables capacity)) (h : Live s) : Live (s.move m).2 :=
    live_generation_move h m
  have hstart : Live { store := (Tables.empty : Tables capacity) } := rfl
  exact runAll_invariant hstep hstart moves

/-- Generation numbers rise under any clock. In every session, whatever the clock says at each pass
and whatever calls fail, the tables hold the number of the book, which is the one that was set last.
Each number that is set is greater than all before it, unless the greatest number of 64 bits has
been reached. A pass that is turned down makes no call and leaves the number. Any other pass tries
to set the number in its last call and in no other one. If this call reaches the tables, the report
and the book have the time of the clock, or the successor of the previous number if that is greater;
this is greater than all numbers that were set before, and where there is no successor the number
stays. If the call does not reach the tables, the number stays what it was. -/
theorem generation_rises_under_any_clock (capacity : Nat) (moves : List Move) :
    let run := runAll move moves { store := (Tables.empty : Tables capacity) }
    let current := run.2.book.generation
    run.2.store.generation = current ∧
    (published run.1).getLast?.getD 0 = current ∧
    (published run.1).Pairwise Rises ∧
    ∀ clock faults raw,
      let p := run.2.pass clock faults raw
      p.store.store.generation = p.book.generation ∧
      (∀ e, p.result = .error e → p.calls = [] ∧ p.book.generation = current) ∧
      ∀ report, p.result = .ok report →
        ∃ before next outcome,
          p.calls = before ++ [⟨.stamp next, outcome⟩] ∧
          (∀ call ∈ before, call.change.part ≠ .generation) ∧
          (faults before.length (.stamp next) = none →
            outcome = .ok () ∧ report.generation = some next ∧ p.book.generation = next) ∧
          (∀ e, faults before.length (.stamp next) = some e →
            outcome = .error e ∧ report.generation = none ∧ p.book.generation = current) ∧
          (current.toNat + 1 < UInt64.size →
            next.toNat = max clock.toNat (current.toNat + 1) ∧
              ∀ earlier ∈ published run.1, earlier < next) ∧
          (current.toNat + 1 = UInt64.size → next = current) := by
  intro run current
  have hlive : run.2.store.generation = current := live_generation capacity moves
  refine ⟨hlive, (generation_after moves _).symm,
    (List.pairwise_cons.1 (pairwise_published moves _)).2, fun clock faults raw => ?_⟩
  intro p
  refine ⟨generation_pass hlive clock faults raw, fun e he => ?turnedDown, fun report hok => ?made⟩
  case turnedDown =>
    have hp : p = ⟨.error e, [], run.2.book, { store := run.2.store, faults := faults }⟩ :=
      pass_of_error he
    rw [hp]
    exact ⟨rfl, rfl⟩
  case made =>
    obtain ⟨before, outcome, hcalls, hother, hreached, hfailed⟩ := generation_made hok
    have hnext := toNat_nextGeneration clock current
    have hrises := rises_nextGeneration clock current
    refine ⟨before, nextGeneration clock current, outcome, hcalls, hother, hreached, hfailed,
      fun hroom => ⟨?_, fun earlier hearlier => ?_⟩, fun hlast => ?_⟩
    · omega
    · have hle : earlier ≤ current := le_generation_after hearlier
      rcases hrises with hup | ⟨hlast, -⟩
      · exact UInt64.lt_of_le_of_lt hle hup
      · omega
    · rcases hrises with hup | ⟨-, hsame⟩
      · have hlt := UInt64.lt_iff_toNat_lt.1 hup
        have hbound := (nextGeneration clock current).toNat_lt_size
        omega
      · exact hsame

/-- A pass whose last call failed sets no number, so the next one goes on from the number before it,
although the clock is behind; a pass for another interface changes nothing. The greatest number
stays. -/
theorem generation_rises_after_failed_call :
    let start : Service (Tables 1) := { store := Tables.empty }
    let reached : Faults := fun _ _ => none
    let refused : Faults := fun _ m => some (.failed m.part "no")
    let s := (runAll move [.pass 5 reached "interface=e", .pass 9 refused "interface=e"] start).2
    let last := (runAll move [.pass 18446744073709551615 reached "interface=e"] start).2
    s.store.generation = 5 ∧
      (s.pass 3 reached "interface=f").book.generation = 5 ∧
      (s.pass 3 refused "interface=e").book.generation = 5 ∧
      (s.pass 3 reached "interface=e").book.generation = 6 ∧
      (last.pass 3 reached "interface=e").book.generation = 18446744073709551615 := by
  intro start reached refused s last
  have hcurrent : s.book.generation = 5 := by decide +kernel
  have hlast : last.book.generation = 18446744073709551615 := by decide +kernel
  obtain ⟨hlive, -, -, hpass⟩ := generation_rises_under_any_clock 1
    [.pass 5 reached "interface=e", .pass 9 refused "interface=e"]
  obtain ⟨-, -, -, hpass'⟩ := generation_rises_under_any_clock 1
    [.pass 18446744073709551615 reached "interface=e"]
  have hturnedDown : (s.pass 3 reached "interface=f").result =
      .error (.interfaceChange "e" "f") := by
    decide +kernel
  have hrefused : (s.pass 3 refused "interface=e").result =
      .ok ⟨"e", false, none, none, [], none⟩ := by
    decide +kernel
  have hreached : (s.pass 3 reached "interface=e").result =
      .ok ⟨"e", false, none, none, [], some 6⟩ := by decide +kernel
  have hstays : (last.pass 3 reached "interface=e").result =
      .ok ⟨"e", false, none, none, [], some 18446744073709551615⟩ := by decide +kernel
  have hroom : s.book.generation.toNat + 1 < UInt64.size := by rw [hcurrent]; decide
  have hnoRoom : last.book.generation.toNat + 1 = UInt64.size := by rw [hlast]; decide
  refine ⟨hlive.trans hcurrent, ?_, ?_, ?_, ?_⟩
  · obtain ⟨-, hsame⟩ := (hpass 3 reached "interface=f").2.1 _ hturnedDown
    exact hsame.trans hcurrent
  · obtain ⟨_, _, _, -, -, -, hfailed, -⟩ := (hpass 3 refused "interface=e").2.2 _ hrefused
    exact (hfailed _ rfl).2.2.trans hcurrent
  · obtain ⟨_, next, _, -, -, hset, -, hup, -⟩ := (hpass 3 reached "interface=e").2.2 _ hreached
    have hvalue : next.toNat = max 3 (s.book.generation.toNat + 1) := (hup hroom).1
    rw [hcurrent] at hvalue
    exact (hset rfl).2.2.trans (UInt64.toNat_inj.1 hvalue)
  · obtain ⟨_, _, _, -, -, hset, -, -, hsame⟩ := (hpass' 3 reached "interface=e").2.2 _ hstays
    exact (hset rfl).2.2.trans ((hsame hnoRoom).trans hlast)

end Service

end Tables

end SourceFilter
