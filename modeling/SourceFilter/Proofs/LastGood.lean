import SourceFilter.Proofs.Binding
import SourceFilter.Proofs.Effects
import SourceFilter.Proofs.Requests

/-!
# The last good configuration stays in force

The configuration file is replaced or removed, reloads read it, requests ask about the state or
reload as well, and packets are judged. Whatever the order, the tables, the book and the generation
number are those of the passes with the texts that reloads found, one after the other: a file that
is missing or no text, a text that is turned down, and every request that is not to reload leave no
trace.
-/

namespace SourceFilter

/-- What of a store cannot be had for the time being. -/
structure Hindrance where
  /-- The mutations that are refused. -/
  refuses : Mutation → Bool := fun _ => false
  /-- The parts that cannot be read. -/
  hides : StorePart → Bool := fun _ => false
  /-- The reason that is given. -/
  reason : String := ""

/-- The store as far as it can be had. -/
def Hindrance.guard {σ : Type} (h : Hindrance) (store : σ) : Guarded σ :=
  ⟨store, h.refuses, h.hides, h.reason⟩

/-- Stores behind the same guard. -/
structure Guarded.Related {σ τ : Type} (R : σ → τ → Prop) (g : Guarded σ) (h : Guarded τ) :
    Prop where
  /-- The stores are related. -/
  store : R g.store h.store
  /-- The same mutations are refused. -/
  refuses : g.refuses = h.refuses
  /-- The reasons are the same. -/
  reason : g.reason = h.reason

/-- The same guard keeps stores alike. -/
theorem Alike.guarded {σ τ : Type} [Store σ] [Store τ] {R : σ → τ → Prop} (h : Alike R) :
    Alike (Guarded.Related R) := by
  rintro m g g' ⟨hR, hrefuses, hreason⟩
  simp only [Store.perform, Guarded.refusal, ← hrefuses, ← hreason]
  split
  next => exact ⟨rfl, hR, hrefuses, hreason⟩
  next =>
    obtain ⟨hanswer, hafter⟩ := h m g.store g'.store hR
    exact ⟨hanswer, hafter, rfl, rfl⟩

/-- A configuration text is that of bytes which could be read. -/
theorem configText_eq_ok {path : String} {content : Except Errno ByteArray} {raw : String}
    (h : configText path content = .ok raw) :
    ∃ bytes, content = .ok bytes ∧ String.fromUTF8? bytes = some raw := by
  cases content with
  | error errno => cases h
  | ok bytes =>
    rw [configText] at h
    cases hraw : String.fromUTF8? bytes with
    | none =>
      simp only [hraw] at h
      cases h
    | some raw' =>
      simp only [hraw] at h
      cases h
      exact ⟨bytes, rfl, hraw⟩

/-- A pass with a text that a reload found. -/
structure Attempt where
  /-- The time of the clock. -/
  clock : UInt64
  /-- What cannot be had of the store. -/
  hindrance : Hindrance
  /-- The text. -/
  raw : String

/-- The pass that a reload makes when reading the file gives this, if it is a text. -/
def Attempt.ofContent? (path : String) (clock : UInt64) (h : Hindrance)
    (content : Except Errno ByteArray) : Option Attempt :=
  (configText path content).toOption.map (⟨clock, h, ·⟩)

/-- Makes the pass: its result, and the service afterwards. -/
def Attempt.make {σ : Type} [Store σ] (a : Attempt) (s : Service σ) :
    Except ConfigError Report × Service σ :=
  let p := reconcileText a.clock a.raw s.book (a.hindrance.guard s.store)
  (p.result, ⟨p.book, p.store.store⟩)

/-- The service with all records of packets cleared. -/
def Service.withoutRecords {capacity : Nat} (s : Service (Tables capacity)) :
    Service (Tables capacity) :=
  ⟨s.book, s.store.withoutRecords⟩

/-- A pass neither depends on records of packets nor changes them. -/
theorem Attempt.make_withoutRecords {capacity : Nat} (a : Attempt)
    (s : Service (Tables capacity)) :
    a.make s.withoutRecords = ((a.make s).1, (a.make s).2.withoutRecords) := by
  obtain ⟨hresult, -, hbook, hstore⟩ := Tables.alike_withoutRecords.guarded.reconcile
    (s := a.hindrance.guard s.store) (t := a.hindrance.guard s.store.withoutRecords)
    ⟨rfl, rfl, rfl⟩ a.clock (Config.parse a.raw) s.book
  have hservice : Service.mk (a.make s).2.book (a.make s).2.store.withoutRecords =
      (a.make s.withoutRecords).2 :=
    congr (congrArg Service.mk hbook) hstore.store
  exact Prod.ext hresult.symm hservice.symm

section Decisions

variable {σ : Type} [Store σ] {a : Attempt} {s : Service σ}

/-- A pass is made when its text names the bound interface, or any when none is bound. -/
theorem Attempt.make_eq_ok_iff : (∃ report, (a.make s).1 = .ok report) ↔
    ∃ name, (Config.parse a.raw).interface = some name ∧
      (s.book.interface = none ∨ s.book.interface = some name) := by
  obtain ⟨-, -, hmade, -⟩ :=
    reconcile_decides a.clock (Config.parse a.raw) s.book (a.hindrance.guard s.store)
  constructor
  · rintro ⟨report, hreport⟩
    exact ⟨report.interface, (hmade _).1 ⟨report, hreport, rfl⟩⟩
  · rintro ⟨name, hname⟩
    obtain ⟨report, hreport, -⟩ := (hmade name).2 hname
    exact ⟨report, hreport⟩

/-- A pass that is turned down changes nothing. -/
theorem Attempt.make_of_error {e : ConfigError} (he : (a.make s).1 = .error e) :
    a.make s = (.error e, s) := by
  have hp := reconcile_of_error he
  rw [make, reconcileText, hp]
  rfl

end Decisions

/-- The interface that a pass bound, if it was the first one. -/
def Report.boundInterface? (report : Report) : Option String :=
  if report.firstBinding then some report.interface else none

/-- The reports of the passes that were not turned down. -/
def reports (results : List (Except ConfigError Report)) : List Report :=
  results.filterMap Except.toOption

section Mentions

variable {σ : Type} [Store σ]

/-- What a pass sets is what the last pass that set it did. -/
theorem last_mention {γ : Type} {value : Book → γ} {mention : Report → Option γ}
    (hmake : ∀ (a : Attempt) (s : Service σ), value (a.make s).2.book =
      ((a.make s).1.toOption.bind mention).getD (value s.book))
    (as : List Attempt) (s : Service σ) :
    value (runAll Attempt.make as s).2.book =
      ((reports (runAll Attempt.make as s).1).filterMap mention).getLast?.getD (value s.book) := by
  -- A pass that was turned down has no report, and one with a report need not mention anything.
  have hsets (results : List (Except ConfigError Report)) :
      (reports results).filterMap mention =
        results.filterMap fun result => result.toOption.bind mention := List.filterMap_filterMap
  rw [hsets]
  induction as generalizing s with
  | nil => rfl
  | cons a as ih =>
    have hrest := ih (a.make s).2
    rw [hmake] at hrest
    refine hrest.trans ?_
    have hresults : (runAll Attempt.make (a :: as) s).1 =
        (a.make s).1 :: (runAll Attempt.make as (a.make s).2).1 := rfl
    rw [hresults, List.filterMap_cons]
    cases (a.make s).1.toOption.bind mention with
    | none => rfl
    | some x =>
      rw [List.getLast?_cons]
      rfl

/-- A pass leaves the generation number that it reports, or else the one that was there. -/
theorem generation_make (a : Attempt) (s : Service σ) :
    (a.make s).2.book.generation =
      ((a.make s).1.toOption.bind Report.generation).getD s.book.generation :=
  generation_reconcile a.clock (Config.parse a.raw) s.book (a.hindrance.guard s.store)

/-- A pass leaves the interface that it bound, or else the one that was there. -/
theorem interface_make (a : Attempt) (s : Service σ) :
    (a.make s).2.book.interface =
      ((a.make s).1.toOption.bind fun report => report.boundInterface?.map some).getD
        s.book.interface := by
  have hcases := reconcile_cases a.clock (Config.parse a.raw) s.book (a.hindrance.guard s.store)
  simp only [Attempt.make, reconcileText]
  rcases hcases with ⟨-, hp⟩ | ⟨bound, name, -, -, -, hp⟩ | ⟨report, hok, -, hafter, hbook⟩
  · rw [hp]
    rfl
  · rw [hp]
    rfl
  · rw [hok, hafter]
    simp only [Except.toOption, Option.bind_some, Report.boundInterface?]
    rcases hbook with ⟨-, hfirst⟩ | ⟨hbound, hfirst⟩
    · rw [hfirst]
      rfl
    · rw [hfirst, hbound]
      rfl

/-- The generation number is that of the last pass that set it. -/
theorem generation_run (as : List Attempt) (store : σ) :
    (runAll Attempt.make as { store := store }).2.book.generation =
      ((reports (runAll Attempt.make as { store := store }).1).filterMap
        Report.generation).getLast?.getD 0 :=
  last_mention generation_make as { store := store }

/-- The interface is that of the last pass that bound one. -/
theorem interface_run (as : List Attempt) (store : σ) :
    (runAll Attempt.make as { store := store }).2.book.interface =
      ((reports (runAll Attempt.make as { store := store }).1).filterMap
        Report.boundInterface?).getLast? := by
  refine (last_mention interface_make as { store := store }).trans ?_
  rw [← List.map_filterMap, List.getLast?_map]
  cases (List.filterMap _ _).getLast? with
  | none => rfl
  | some name => rfl

end Mentions

/-- A configuration file and the service that is kept in line with it. -/
structure Installation (capacity : Nat) where
  /-- What reading the file gives. -/
  content : Except Errno ByteArray
  /-- The service. -/
  service : Service (Tables capacity) := { store := .empty }

namespace Installation

variable {capacity : Nat}

/-- What happens, one thing at a time. -/
inductive Step where
  /-- The file is replaced, removed, or cannot be read any more. -/
  | put (content : Except Errno ByteArray)
  /-- The service reloads. -/
  | reload (clock : UInt64) (hindrance : Hindrance)
  /-- A client asks for something. -/
  | request (clock : UInt64) (hindrance : Hindrance) (request : HttpRequest)
  /-- A packet of a source arrives at a time. -/
  | packet (source : Address) (now : UInt64)

/-- What is seen of it. -/
inductive Answer where
  /-- Nothing. -/
  | nothing
  /-- The report of a pass, or why nothing changed. -/
  | reload (outcome : Except Failure Report)
  /-- The answer to a request. -/
  | response (response : HttpResponse)
  /-- What becomes of a packet. -/
  | packet (verdict : Verdict)

/-- The service as far as its store can be had. -/
def guarded (i : Installation capacity) (h : Hindrance) : Service (Guarded (Tables capacity)) :=
  ⟨i.service.book, h.guard i.service.store⟩

/-- The installation after its service has come to this. -/
def after (i : Installation capacity) (s : Service (Guarded (Tables capacity))) :
    Installation capacity :=
  { i with service := ⟨s.book, s.store.store⟩ }

/-- Lets something happen. -/
def step (path : String) : Step → Installation capacity → Answer × Installation capacity
  | .put content, i => (.nothing, { i with content := content })
  | .reload clock h, i =>
    let result := (i.guarded h).reload clock path i.content
    (.reload result.outcome, i.after result.service)
  | .request clock h r, i =>
    let exchange := Http.respond (i.guarded h) clock path i.content r
    (.response exchange.response, i.after exchange.service)
  | .packet source now, i =>
    let (verdict, store) := i.service.store.classify source now
    (.packet verdict, { i with service.store := store })

/-- What reading the file gives after a step. -/
def Step.contentAfter (content : Except Errno ByteArray) : Step → Except Errno ByteArray
  | .put content => content
  | .reload _ _ | .request _ _ _ | .packet _ _ => content

/-- The pass that a step makes when reading the file gives this. -/
def Step.attempt? (path : String) (content : Except Errno ByteArray) : Step → Option Attempt
  | .reload clock h => Attempt.ofContent? path clock h content
  | .request clock h r => if r.reloads then Attempt.ofContent? path clock h content else none
  | .put _ | .packet _ _ => none

/-- The passes that some steps make, told by the steps alone. -/
def attempts (path : String) : Except Errno ByteArray → List Step → List Attempt
  | _, [] => []
  | content, a :: steps =>
    (a.attempt? path content).toList ++ attempts path (a.contentAfter content) steps

/-- The file holds a text that names the bound interface, or any interface when none is bound. -/
def Good (i : Installation capacity) : Prop :=
  ∃ bytes raw name, i.content = .ok bytes ∧ String.fromUTF8? bytes = some raw ∧
    (Config.parse raw).interface = some name ∧
    (i.service.book.interface = none ∨ i.service.book.interface = some name)

variable {path : String} {clock : UInt64} {h : Hindrance} {i : Installation capacity}

/-- A reload of a file that is no text changes nothing, and one of a text makes a pass with it. -/
theorem step_reload :
    step path (.reload clock h) i =
      match configText path i.content with
      | .error failure => (.reload (.error failure), i)
      | .ok raw =>
        let (result, service) := (⟨clock, h, raw⟩ : Attempt).make i.service
        (.reload (result.mapError fun e => ⟨e.message, []⟩), { i with service := service }) := by
  rw [step, Service.reload]
  cases configText path i.content with
  | error failure => rfl
  | ok raw => rfl

/-- A request to reload does what a reload does, and is answered with its outcome. -/
theorem step_request {r : HttpRequest} (hr : r.reloads = true) {outcome : Except Failure Report}
    {i' : Installation capacity}
    (hreload : step path (.reload clock h) i = (.reload outcome, i')) :
    step path (.request clock h r) i = (.response (.ofReload outcome), i') := by
  cases hreload
  simp only [step, Http.respond_of_reloads hr]

/-- A reload of a good file makes its pass. -/
theorem step_reload_of_good (path : String) (clock : UInt64) (h : Hindrance) (hgood : i.Good) :
    ∃ report, (step path (.reload clock h) i).1 = .reload (.ok report) := by
  obtain ⟨bytes, raw, name, hcontent, hraw, hname⟩ := hgood
  have htext : configText path i.content = .ok raw := by
    simp only [configText, hcontent, hraw]
  obtain ⟨report, hreport⟩ :=
    (Attempt.make_eq_ok_iff (a := ⟨clock, h, raw⟩) (s := i.service)).2 ⟨name, hname⟩
  refine ⟨report, ?_⟩
  rw [step_reload, htext]
  simp only [hreport]
  rfl

/-- A reload of any other file fails and changes nothing. -/
theorem step_reload_of_not_good (path : String) (clock : UInt64) (h : Hindrance)
    (hbad : ¬i.Good) :
    ∃ failure, step path (.reload clock h) i = (.reload (.error failure), i) := by
  rw [step_reload]
  cases htext : configText path i.content with
  | error failure => exact ⟨failure, rfl⟩
  | ok raw =>
    simp only
    cases hresult : ((⟨clock, h, raw⟩ : Attempt).make i.service).1 with
    | error e =>
      rw [Attempt.make_of_error hresult]
      exact ⟨_, rfl⟩
    | ok report =>
      obtain ⟨name, hname⟩ := Attempt.make_eq_ok_iff.1 ⟨report, hresult⟩
      obtain ⟨bytes, hcontent, hraw⟩ := configText_eq_ok htext
      exact absurd ⟨bytes, raw, name, hcontent, hraw, hname⟩ hbad

/-- All other requests change nothing. -/
theorem step_request_of_not_reloads {r : HttpRequest} (hr : r.reloads = false) :
    (step path (.request clock h r) i).2 = i := by
  simp only [step, Http.service_respond hr]
  rfl

/-- A reload makes a pass if it finds a text, and otherwise changes nothing. -/
theorem withoutRecords_reload (path : String) (clock : UInt64) (h : Hindrance)
    (i : Installation capacity) :
    (step path (.reload clock h) i).2.content = i.content ∧
      (step path (.reload clock h) i).2.service.withoutRecords =
        (runAll Attempt.make (Attempt.ofContent? path clock h i.content).toList
          i.service.withoutRecords).2 := by
  rw [step_reload, Attempt.ofContent?]
  cases configText path i.content with
  | error failure => exact ⟨rfl, rfl⟩
  | ok raw => exact ⟨rfl, (congrArg Prod.snd (Attempt.make_withoutRecords _ i.service)).symm⟩

/-- A step makes the pass that it is told to make, and otherwise changes nothing but records of
packets. -/
theorem withoutRecords_step (path : String) (a : Step) (i : Installation capacity) :
    (step path a i).2.content = a.contentAfter i.content ∧
      (step path a i).2.service.withoutRecords =
        (runAll Attempt.make (a.attempt? path i.content).toList i.service.withoutRecords).2 := by
  cases a with
  | put content => exact ⟨rfl, rfl⟩
  | reload clock h => exact withoutRecords_reload path clock h i
  | request clock h r =>
    simp only [Step.attempt?, Step.contentAfter]
    cases hr : r.reloads with
    | true =>
      rw [step_request hr rfl, if_pos rfl]
      exact withoutRecords_reload path clock h i
    | false =>
      rw [step_request_of_not_reloads hr, if_neg Bool.false_ne_true]
      exact ⟨rfl, rfl⟩
  | packet source now =>
    refine ⟨rfl, ?_⟩
    have hstore := i.service.store.withoutRecords_classify source now
    exact congrArg (Service.mk i.service.book) hstore

/-- A run makes the passes that its steps tell, and otherwise changes nothing but records of
packets. -/
theorem withoutRecords_run (steps : List Step) (i : Installation capacity) :
    (runAll (step path) steps i).2.service.withoutRecords =
      (runAll Attempt.make (attempts path i.content steps) i.service.withoutRecords).2 := by
  induction steps generalizing i with
  | nil => rfl
  | cons a steps ih =>
    obtain ⟨hcontent, hservice⟩ := withoutRecords_step path a i
    have hrest := ih (step path a i).2
    rw [hcontent, hservice, ← runAll_append] at hrest
    exact hrest

/-- The counts of tables can be read unless they are hidden. -/
theorem statistics_guarded (htotals : h.hides .totals = false)
    (hsources : h.hides .sourceTallies = false) :
    ∃ report, (i.guarded h).statistics = .ok report := by
  have hread : Counter.totals (i.guarded h).store = .ok i.service.store.totals :=
    if_neg (Bool.eq_false_iff.1 htotals)
  have hlist : Counter.sources (i.guarded h).store = Counter.sources i.service.store :=
    if_neg (Bool.eq_false_iff.1 hsources)
  rw [Service.statistics, Statistics.collect, hread, hlist]
  exact ⟨_, rfl⟩

/-- The last good state is kept. Let the file be replaced and removed, and let reloads, requests and
packets come in any order. Then the book, and the tables but for the records of packets, are what
the passes with the texts that reloads found have made of empty ones, one after the other. A reload
of a good file makes its pass, also when it is requested; any other reload fails and changes
nothing, and neither does any request that is not to reload. The generation number and the
interface that are answered are those of the last passes that set them. If the counts can be read,
the sources with the most dropped packets are the first ones of the statistics, as many as the
limit says. -/
theorem keeps_last_good (capacity : Nat) (path : String) (content : Except Errno ByteArray)
    (steps : List Step) :
    let i := (runAll (step path) steps ({ content := content } : Installation capacity)).2
    let passes := runAll Attempt.make (attempts path content steps)
      ({ store := .empty } : Service (Tables capacity))
    i.service.book = passes.2.book ∧
    i.service.store.withoutRecords = passes.2.store ∧
    (∀ clock h, i.Good → ∃ report i', step path (.reload clock h) i = (.reload (.ok report), i') ∧
      ∀ r, r.reloads = true →
        step path (.request clock h r) i = (.response (.of 200 (.json report.toJson)), i')) ∧
    (∀ clock h, ¬i.Good → ∃ failure, step path (.reload clock h) i = (.reload (.error failure), i) ∧
      ∀ r, r.reloads = true →
        step path (.request clock h r) i = (.response (.of 422 (.text failure.inline)), i)) ∧
    (∀ clock h r, r.reloads = false → (step path (.request clock h r) i).2 = i) ∧
    (∀ clock h r, r.method = "GET" → r.route? = some .generation →
      let generation := ((reports passes.1).filterMap Report.generation).getLast?.getD 0
      let interface := ((reports passes.1).filterMap Report.boundInterface?).getLast?
      (step path (.request clock h r) i).1 = .response (.of 200 (.json (.object
        [("generation", .number generation.toNat),
          ("interface", Json.ofOption .string interface)])))) ∧
    ∀ clock h, h.hides .totals = false → h.hides .sourceTallies = false →
      ∀ r, r.method = "GET" → r.route? = some .statistics →
        ∃ totals entries,
          (step path (.request clock h r) i).1 = .response (.of 200 (.json (.object
            [("totals", totals), ("entries", .array entries)]))) ∧
          (∀ r' n, r'.method = "GET" → r'.route? = some .top → r'.limit? = .ok (some n) →
            (step path (.request clock h r') i).1 =
              .response (.of 200 (.json (.array (entries.take (min n entries.length)))))) ∧
          ∀ n < UInt64.size, (step path (.request clock h (.top n)) i).1 =
            .response (.of 200 (.json (.array (entries.take (min n entries.length))))) := by
  intro i passes
  have hservice : i.service.withoutRecords = passes.2 :=
    withoutRecords_run steps { content := content }
  have hbook : i.service.book = passes.2.book := (congrArg Service.book hservice :)
  have hstore : i.service.store.withoutRecords = passes.2.store :=
    (congrArg Service.store hservice :)
  refine ⟨hbook, hstore, fun clock h hgood => ?_, fun clock h hbad => ?_,
    fun clock h r hr => step_request_of_not_reloads hr, fun clock h r hmethod hroute => ?_, ?_⟩
  · obtain ⟨report, hreport⟩ := step_reload_of_good path clock h hgood
    have hreload : step path (.reload clock h) i =
        (.reload (.ok report), (step path (.reload clock h) i).2) := Prod.ext hreport rfl
    exact ⟨report, _, hreload, fun r hr => step_request hr hreload⟩
  · obtain ⟨failure, hreload⟩ := step_reload_of_not_good path clock h hbad
    exact ⟨failure, hreload, fun r hr => step_request hr hreload⟩
  · intro generation interface
    have hgeneration : i.service.book.generation = generation := by
      rw [hbook]
      exact generation_run _ _
    have hinterface : i.service.book.interface = interface := by
      rw [hbook]
      exact interface_run _ _
    rw [← hgeneration, ← hinterface]
    simp only [step, Http.respond_get hmethod hroute]
    rfl
  · intro clock h htotals hsources r hmethod hroute
    obtain ⟨report, hreport⟩ := statistics_guarded (i := i) htotals hsources
    refine ⟨report.totals.toJson, report.entries.map SourceTally.toJson, ?_, ?_, ?_⟩
    · exact congrArg Answer.response (Http.respond_statistics hreport hmethod hroute)
    · intro r' n hmethod' hroute' hlimit
      exact congrArg Answer.response (Http.respond_top hreport hmethod' hroute' hlimit)
    · intro n hn
      exact congrArg Answer.response (Http.respond_top hreport rfl (HttpRequest.route?_top n)
        (HttpRequest.limit?_top hn))

/-- A request to reload has a pass made. Then the file is no text, and after that it names another
interface: what is answered stays as it was. -/
theorem keeps_last_good_after_bad_files :
    let good := "interface=e\nip_blacklist=1.1.1.1".toUTF8
    let foreign := "interface=f\nip_blacklist=2.2.2.2".toUTF8
    let steps : List Step :=
      [.put (.ok good), .request 7 {} ⟨"POST", "/reload"⟩, .packet (Address.ofOctets 1 1 1 1) 0,
        .put (.ok ⟨#[0xFF]⟩), .reload 8 {}, .put (.ok foreign)]
    let i := (runAll (step "config.txt") steps
      ({ content := .error .noEntry } : Installation 2)).2
    (∃ failure : Failure, step "config.txt" (.request 9 {} ⟨"POST", "/reload"⟩) i =
      (.response (.of 422 (.text failure.inline)), i)) ∧
    (step "config.txt" (.request 9 {} ⟨"GET", "/generation"⟩) i).1 =
      .response (.of 200 (.json (.object
        [("generation", .number 7), ("interface", .string "e")]))) ∧
    ∃ totals entries,
      (step "config.txt" (.request 9 {} ⟨"GET", "/stats"⟩) i).1 =
        .response (.of 200 (.json (.object [("totals", totals), ("entries", .array entries)]))) ∧
      (step "config.txt" (.request 9 {} (.top 1)) i).1 =
        .response (.of 200 (.json (.array (entries.take (min 1 entries.length))))) := by
  intro good foreign steps i
  obtain ⟨-, -, -, hfails, -, hgeneration, hstatistics⟩ :=
    keeps_last_good 2 "config.txt" (.error .noEntry) steps
  have hbad : ¬i.Good := by
    rintro ⟨bytes, raw, name, hcontent, hraw, hname, hbound⟩
    have hfile : i.content = .ok foreign := rfl
    have htext : String.fromUTF8? foreign = some "interface=f\nip_blacklist=2.2.2.2" := by
      decide +kernel
    have hother : (Config.parse "interface=f\nip_blacklist=2.2.2.2").interface = some "f" := by
      decide +kernel
    have hbook : i.service.book.interface = some "e" := by decide +kernel
    cases hfile.symm.trans hcontent
    cases htext.symm.trans hraw
    cases hother.symm.trans hname
    rw [hbook] at hbound
    exact absurd hbound (by decide)
  obtain ⟨failure, -, hrequest⟩ := hfails 9 {} hbad
  obtain ⟨totals, entries, hall, -, htop⟩ :=
    hstatistics 9 {} rfl rfl ⟨"GET", "/stats"⟩ rfl (by decide +kernel)
  refine ⟨⟨failure, hrequest _ (by decide +kernel)⟩, ?_, totals, entries, hall,
    htop 1 (by decide)⟩
  let passes := runAll Attempt.make (attempts "config.txt" (.error .noEntry) steps)
    ({ store := .empty } : Service (Tables 2))
  have hnumber : ((reports passes.1).filterMap Report.generation).getLast?.getD 0 = 7 := by
    decide +kernel
  have hname : ((reports passes.1).filterMap Report.boundInterface?).getLast? = some "e" := by
    decide +kernel
  have hanswer := hgeneration 9 {} ⟨"GET", "/generation"⟩ rfl (by decide +kernel)
  simp only at hanswer
  rw [hnumber, hname] at hanswer
  exact hanswer

end Installation

end SourceFilter
