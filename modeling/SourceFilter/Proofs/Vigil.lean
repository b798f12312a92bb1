import SourceFilter.Daemon.Run
import Mathlib.Data.List.Basic

/-!
# Keeping watch over a file that changes

Once the daemon watches the folder of its configuration file, the system reports every change of
the file to it, sooner or later. A report on the file leaves a notice in a channel that has room
for one; when a notice waits already, the report goes by. The daemon takes the notice, reads the
file, and then makes its pass. As it takes the notice before it reads, no change is lost from then
on: when nothing is under way, the daemon has read what the file holds. A change between the first
reading and the start of the watch is not reported, however, so it stays unread until the file
changes again.
-/

namespace SourceFilter

/-- A channel with room for so many notices, which are all alike. -/
structure Channel (capacity : Nat) where
  /-- How many notices wait. -/
  waiting : Nat := 0
  /-- There is room for them. -/
  waiting_le : waiting ≤ capacity := by omega
  deriving DecidableEq

namespace Channel

variable {capacity : Nat}

/-- Sends a notice, unless the channel is full: whether it was sent, and the channel afterwards. -/
def trySend (c : Channel capacity) : Bool × Channel capacity :=
  if h : c.waiting < capacity then (true, ⟨c.waiting + 1, h⟩) else (false, c)

/-- Takes a notice that waits. -/
def receive? (c : Channel capacity) : Option (Channel capacity) :=
  if c.waiting = 0 then none
  else some ⟨c.waiting - 1, Nat.le_trans (Nat.sub_le _ _) c.waiting_le⟩

/-- After sending, a notice waits, whether it was sent or not. -/
theorem waiting_trySend_pos (hroom : 0 < capacity) (c : Channel capacity) :
    0 < c.trySend.2.waiting := by
  rw [trySend]
  split
  next => exact Nat.succ_pos _
  next hfull => exact Nat.lt_of_lt_of_le hroom (Nat.le_of_not_lt hfull)

/-- No notice can be taken when none waits. -/
theorem receive?_eq_none_iff {c : Channel capacity} : c.receive? = none ↔ c.waiting = 0 := by
  rw [receive?]
  split
  next h => exact iff_of_true rfl h
  next h => exact iff_of_false (Option.some_ne_none _) h

end Channel

/-- What the system reports: an event and the paths that it is about. -/
structure FileReport where
  /-- The event. -/
  event : FileEvent
  /-- The paths. -/
  paths : List (List Char)
  deriving DecidableEq, Repr

/-- Whether a report is about the file of a name, and relevant. -/
def FileReport.concerns (name : List Char) (r : FileReport) : Bool := r.event.concerns name r.paths

/-- What the daemon does next. -/
inductive Stage where
  /-- It reads its configuration file for the first time. -/
  | loaded
  /-- It makes the first pass, with the text that it read. -/
  | informed (raw : String)
  /-- It attaches the program to an interface. -/
  | settled (interface : String)
  /-- It begins to watch. -/
  | attached
  /-- It waits for a notice. -/
  | idle
  /-- It took a notice, and reads the file. -/
  | notified
  /-- It makes a pass with the text that it read. -/
  | holding (raw : String)
  /-- Nothing, as it failed to start. -/
  | ended
  deriving DecidableEq, Repr

/-- Whether the daemon watches its file. -/
def Stage.watches : Stage → Bool
  | .idle | .notified | .holding _ => true
  | .loaded | .informed _ | .settled _ | .attached | .ended => false

/-- A daemon, its configuration file, and what was reported about the file. -/
structure Vigil where
  /-- The daemon. -/
  daemon : Daemon
  /-- What reading the file gives. -/
  content : Except Errno ByteArray
  /-- What the daemon does next. -/
  stage : Stage
  /-- The reports that have not reached the daemon. -/
  undelivered : List FileReport := []
  /-- The notices for the daemon. -/
  channel : Channel 1 := {}
  /-- What the daemon's last reading of the file gave. -/
  lastRead : Option (Except Errno ByteArray) := none

namespace Vigil

/-- What happens between two moments. -/
inductive Step where
  /-- The file changes; from now on reading it gives this. The system has these reports on it. -/
  | change (content : Except Errno ByteArray) (reports : List FileReport)
  /-- Something else happens in the folder. -/
  | elsewhere (reports : List FileReport)
  /-- A report reaches the daemon. -/
  | deliver (n : Nat)
  /-- The daemon does what comes next. -/
  | advance (clock : UInt64)

/-- The system keeps reports for a daemon that watches. -/
def report (v : Vigil) (reports : List FileReport) : Vigil :=
  if v.stage.watches then { v with undelivered := v.undelivered ++ reports } else v

/-- A report on the file leaves a notice. -/
def deliver (v : Vigil) (n : Nat) : Vigil :=
  match v.undelivered[n]? with
  | none => v
  | some r =>
    { v with
      undelivered := v.undelivered.eraseIdx n
      channel := if r.concerns v.daemon.configName then v.channel.trySend.2 else v.channel }

/-- The daemon reads the file: the next stage if it is a text, or else the other one. -/
def read (v : Vigil) (next : String → Stage) (otherwise : Stage) : Vigil :=
  { v with
    lastRead := some v.content
    stage :=
      match configText v.daemon.configPath v.content with
      | .ok raw => next raw
      | .error _ => otherwise }

/-- The daemon does what comes next. Watching succeeds or fails as given. -/
def advance (watching : Except Failure Unit) (clock : UInt64) (v : Vigil) : Vigil :=
  match v.stage with
  | .loaded => v.read .informed .ended
  | .informed raw =>
    let first := v.daemon.service.apply clock raw
    { v with
      daemon := v.daemon.withService first.service
      stage :=
        match first.outcome with
        | .ok report => .settled report.interface
        | .error _ => .ended }
  | .settled interface =>
    let (outcome, filter, _) := v.daemon.filter.attach interface v.daemon.settings.attachMode
    { v with daemon.filter := filter, stage := if outcome.isOk then .attached else .ended }
  | .attached => { v with stage := if watching.isOk then .idle else .ended }
  | .idle =>
    match v.channel.receive? with
    | none => v
    | some channel => { v with channel := channel, stage := .notified }
  | .notified => v.read .holding .idle
  | .holding raw =>
    { v with
      daemon := v.daemon.withService (v.daemon.service.apply clock raw).service
      stage := .idle }
  | .ended => v

/-- A step. -/
def step (watching : Except Failure Unit) : Step → Vigil → Vigil
  | .change content reports, v => { v with content := content }.report reports
  | .elsewhere reports, v => v.report reports
  | .deliver n, v => v.deliver n
  | .advance clock, v => v.advance watching clock

/-- The steps, one after the other. -/
def run (watching : Except Failure Unit) (steps : List Step) (v : Vigil) : Vigil :=
  steps.foldl (fun v a => step watching a v) v

/-- Whether a step changes the file. -/
def Step.changes : Step → Bool
  | .change _ _ => true
  | .elsewhere _ | .deliver _ | .advance _ => false

/-- When the file has new content, at least one report is on it. -/
def Step.Announced (name : List Char) : Step → Prop
  | .change (.ok _) reports => ∃ r ∈ reports, r.concerns name = true
  | .change (.error _) _ | .elsewhere _ | .deliver _ | .advance _ => True

instance (name : List Char) : (a : Step) → Decidable (a.Announced name)
  | .change (.ok _) reports =>
    inferInstanceAs (Decidable (∃ r ∈ reports, r.concerns name = true))
  | .change (.error _) _ | .elsewhere _ | .deliver _ | .advance _ => .isTrue trivial

/-- What else happens is not reported as if it were about the file. -/
def Step.Separate (name : List Char) : Step → Prop
  | .elsewhere reports => ∀ r ∈ reports, r.concerns name = false
  | .change _ _ | .deliver _ | .advance _ => True

instance (name : List Char) : (a : Step) → Decidable (a.Separate name)
  | .elsewhere reports => inferInstanceAs (Decidable (∀ r ∈ reports, r.concerns name = false))
  | .change _ _ | .deliver _ | .advance _ => .isTrue trivial

/-- Nothing is under way. -/
structure Quiet (v : Vigil) : Prop where
  /-- All reports on the file have reached the daemon. -/
  delivered : ∀ r ∈ v.undelivered, r.concerns v.daemon.configName = false
  /-- All notices have been taken. -/
  received : v.channel.waiting = 0
  /-- The daemon is not about to read the file. -/
  read : v.stage ≠ .notified

instance (v : Vigil) : Decidable v.Quiet :=
  decidable_of_iff
    ((∀ r ∈ v.undelivered, r.concerns v.daemon.configName = false) ∧ v.channel.waiting = 0 ∧
      v.stage ≠ .notified)
    ⟨fun h => ⟨h.1, h.2.1, h.2.2⟩, fun h => ⟨h.delivered, h.received, h.read⟩⟩

/-- When nothing is under way, the daemon has read what the file holds. -/
def Current (v : Vigil) : Prop :=
  ∀ bytes, v.content = .ok bytes → v.Quiet → v.lastRead = some v.content

section Frames

variable {v : Vigil}

/-- Reports do not change the file. -/
@[simp] theorem content_report (reports : List FileReport) :
    (v.report reports).content = v.content := by
  rw [report]
  split <;> rfl

/-- Reports do not have the daemon read. -/
@[simp] theorem lastRead_report (reports : List FileReport) :
    (v.report reports).lastRead = v.lastRead := by
  rw [report]
  split <;> rfl

/-- Reports do not have the daemon do anything. -/
@[simp] theorem stage_report (reports : List FileReport) :
    (v.report reports).stage = v.stage := by
  rw [report]
  split <;> rfl

/-- Nor does their delivery change the file. -/
@[simp] theorem content_deliver (n : Nat) : (v.deliver n).content = v.content := by
  rw [deliver]
  split <;> rfl

/-- Nor does their delivery have the daemon read. -/
@[simp] theorem lastRead_deliver (n : Nat) : (v.deliver n).lastRead = v.lastRead := by
  rw [deliver]
  split <;> rfl

/-- Nor does their delivery have the daemon do anything but what it does next. -/
@[simp] theorem stage_deliver (n : Nat) : (v.deliver n).stage = v.stage := by
  rw [deliver]
  split <;> rfl

end Frames

section Uninterrupted

/-- The stages from loading to watching, without a change in between, are the start of a daemon. -/
theorem advance_eq_start {kernel kernel' : Kernel} {settings : Settings} {object : ObjectFile}
    {filter : Filter} (hload : (kernel.loadObject settings.object object).outcome = .ok filter)
    (hreset : filter.kernel.resetTotals = (.ok (), kernel')) (path : String)
    (content : Except Errno ByteArray) (watching : Except Failure Unit) (clock : UInt64) :
    let v : Vigil :=
      { daemon := ⟨settings, path, { filter with kernel := kernel' }, {}⟩
        content := content
        stage := .loaded }
    let final := run watching (List.replicate 4 (.advance clock)) v
    (Daemon.start kernel settings path object content watching clock).outcome.toOption =
      if final.stage = .idle then some final.daemon else none := by
  intro v final
  simp only [v, final, Daemon.start, hload, hreset, run, List.replicate, List.foldl_cons,
    List.foldl_nil, step]
  cases htext : configText path content with
  | error failure =>
    simp only [advance, read, htext]
    rfl
  | ok raw =>
    let first : Reload Kernel := Service.apply { store := kernel' } clock raw
    cases hfirst : first.outcome with
    | error failure =>
      simp only [advance, read, htext, Daemon.service, first, hfirst]
      rfl
    | ok report =>
      simp only [advance, read, htext, Daemon.service, Daemon.withService, first, hfirst]
      generalize hattached : Filter.attach _ report.interface settings.attachMode = attached
      obtain ⟨outcome, filter', events⟩ := attached
      cases outcome with
      | error failure => rfl
      | ok _ =>
        cases watching with
        | error failure => rfl
        | ok _ => rfl

/-- A report that reaches a daemon that waits for a notice, without a change in between, has it
make a pass if the report is on its file. -/
theorem advance_eq_notice {v : Vigil} {n : Nat} {r : FileReport} (hstage : v.stage = .idle)
    (hwaiting : v.channel.waiting = 0) (hr : v.undelivered[n]? = some r)
    (watching : Except Failure Unit) (clock : UInt64) :
    let final := run watching (.deliver n :: List.replicate 3 (.advance clock)) v
    final.daemon = (v.daemon.notice clock v.content r.paths r.event).1 ∧
      final.undelivered = v.undelivered.eraseIdx n ∧ final.channel.waiting = 0 ∧
      final.stage = .idle := by
  intro final
  obtain ⟨daemon, content, stage, undelivered, ⟨waiting, hle⟩, lastRead⟩ := v
  simp only at hstage hwaiting hr
  subst hstage hwaiting
  simp only [final, run, List.replicate, List.foldl_cons, List.foldl_nil, step, deliver, hr,
    Daemon.notice]
  cases hconcerns : r.concerns daemon.configName with
  | false =>
    have hevent : r.event.concerns daemon.configName r.paths = false := hconcerns
    simp only [hevent]
    exact ⟨rfl, rfl, rfl, rfl⟩
  | true =>
    have hevent : r.event.concerns daemon.configName r.paths = true := hconcerns
    have hsend : (⟨0, hle⟩ : Channel 1).trySend.2 = ⟨1, Nat.le_refl 1⟩ := rfl
    have htake : (⟨1, Nat.le_refl 1⟩ : Channel 1).receive? = some {} := rfl
    simp only [hevent, if_true, hsend]
    cases htext : configText daemon.configPath content with
    | error failure =>
      simp only [advance, htake, read, htext, Daemon.reconcileChange, Service.reload]
      exact ⟨rfl, rfl, rfl, rfl⟩
    | ok raw =>
      simp only [advance, htake, read, htext, Daemon.reconcileChange, Service.reload, and_self]

end Uninterrupted

section Watching

variable {watching : Except Failure Unit} {v : Vigil} {a : Step} {steps : List Step}

/-- The file that is watched has the same name throughout. -/
@[simp] theorem configName_step :
    (step watching a v).daemon.configName = v.daemon.configName := by
  cases a with
  | change content reports => simp only [step, report]; split <;> rfl
  | elsewhere reports => simp only [step, report]; split <;> rfl
  | deliver n => simp only [step, deliver]; split <;> rfl
  | advance clock =>
    simp only [step, advance]
    cases v.stage with
    | idle => dsimp only; split <;> rfl
    | _ => rfl

/-- The file has the same name throughout a run. -/
@[simp] theorem configName_run :
    (run watching steps v).daemon.configName = v.daemon.configName := by
  induction steps generalizing v with
  | nil => rfl
  | cons a steps ih => exact ih.trans configName_step

/-- Only the daemon changes what it does next. -/
theorem stage_step (watching : Except Failure Unit) (a : Step) (v : Vigil) :
    (step watching a v).stage = v.stage ∨ ∃ clock, a = .advance clock := by
  cases a with
  | change content reports => exact .inl (stage_report reports)
  | elsewhere reports => exact .inl (stage_report reports)
  | deliver n => exact .inl (stage_deliver n)
  | advance clock => exact .inr ⟨clock, rfl⟩

/-- The daemon watches if it did before, or if it was about to and watching succeeds. -/
theorem watches_advance (watching : Except Failure Unit) (clock : UInt64) (v : Vigil) :
    (v.advance watching clock).stage.watches =
      (v.stage.watches || (v.stage == .attached && watching.isOk)) := by
  rw [advance]
  cases hstage : v.stage with
  | attached => cases watching <;> rfl
  | idle =>
    dsimp only
    split
    next => rw [hstage]; rfl
    next => rfl
  | ended => dsimp only; rw [hstage]; rfl
  | settled interface => dsimp only; split <;> rfl
  | holding raw => rfl
  | _ =>
    simp only [read]
    split <;> rfl

/-- A daemon that watches goes on watching. -/
theorem watches_step (h : v.stage.watches = true) : (step watching a v).stage.watches = true := by
  obtain hsame | ⟨clock, rfl⟩ := stage_step watching a v
  · rwa [hsame]
  · rw [step, watches_advance, h, Bool.true_or]

/-- Reports are under way if they are on the file. -/
theorem quiet_report {reports : List FileReport} (hwatches : v.stage.watches = true) :
    (v.report reports).Quiet ↔
      v.Quiet ∧ ∀ r ∈ reports, r.concerns v.daemon.configName = false := by
  have hreport : v.report reports = { v with undelivered := v.undelivered ++ reports } :=
    if_pos hwatches
  rw [hreport]
  constructor
  · intro h
    exact ⟨⟨fun r hr => h.delivered r (List.mem_append_left _ hr), h.received, h.read⟩,
      fun r hr => h.delivered r (List.mem_append_right _ hr)⟩
  · rintro ⟨h, hreports⟩
    refine ⟨fun r hr => ?_, h.received, h.read⟩
    exact (List.mem_append.mp hr).elim (h.delivered r) (hreports r)

/-- When nothing is under way after a report has reached the daemon, nothing was before: the report
was not on the file, since it would have left a notice. -/
theorem quiet_of_deliver {n : Nat} (h : (v.deliver n).Quiet) : v.Quiet := by
  rw [deliver] at h
  split at h
  next => exact h
  next r hr =>
    have hconcerns : r.concerns v.daemon.configName = false := by
      by_contra hconcerns
      have hreceived := h.received
      simp only [if_pos (Bool.of_not_eq_false hconcerns)] at hreceived
      exact absurd hreceived (Nat.ne_of_gt (v.channel.waiting_trySend_pos Nat.one_pos))
    have hreceived := h.received
    simp only [hconcerns, Bool.false_eq_true, if_false] at hreceived
    refine ⟨fun r' hr' => ?_, hreceived, h.read⟩
    obtain ⟨m, hm⟩ := List.mem_iff_getElem?.mp hr'
    by_cases hmn : m = n
    · have hsame : r' = r := Option.some_inj.mp (by rw [← hm, hmn, hr])
      rw [hsame, hconcerns]
    · exact h.delivered r' (List.mem_eraseIdx_iff_getElem?.mpr ⟨m, hmn, hm⟩)

/-- When nothing is under way after the daemon did something, it read the file, or nothing was under
way before and it read nothing. -/
theorem quiet_of_advance {clock : UInt64} (hwatches : v.stage.watches = true)
    (h : (v.advance watching clock).Quiet) :
    (v.advance watching clock).content = v.content ∧
      ((v.advance watching clock).lastRead = some v.content ∨
        v.Quiet ∧ (v.advance watching clock).lastRead = v.lastRead) := by
  rw [advance] at h ⊢
  cases hstage : v.stage with
  | idle =>
    cases htake : v.channel.receive? with
    | none =>
      rw [hstage, htake] at h
      exact ⟨rfl, .inr ⟨h, rfl⟩⟩
    | some channel =>
      -- The notice is taken before the file is read, so the reading is yet to come.
      rw [hstage, htake] at h
      exact absurd rfl h.read
  | notified => exact ⟨rfl, .inl rfl⟩
  | holding raw =>
    rw [hstage] at h
    refine ⟨rfl, .inr ⟨⟨h.delivered, h.received, ?_⟩, rfl⟩⟩
    rw [hstage]
    exact Stage.noConfusion
  | _ => simp [hstage, Stage.watches] at hwatches

/-- How nothing comes to be under way while the daemon watches: it has just read the file, or
nothing was under way before, and the step neither changed the file nor read it. -/
theorem quiet_step (hwatches : v.stage.watches = true) (ha : a.Announced v.daemon.configName)
    {bytes : ByteArray} (hcontent : (step watching a v).content = .ok bytes)
    (hquiet : (step watching a v).Quiet) :
    (step watching a v).lastRead = some (step watching a v).content ∨
      a.changes = false ∧ v.Quiet ∧ (step watching a v).content = v.content ∧
        (step watching a v).lastRead = v.lastRead := by
  cases a with
  | change content reports =>
    -- The change is reported, and the report has not reached the daemon.
    obtain ⟨-, hreports⟩ := (quiet_report (v := { v with content := content }) hwatches).mp hquiet
    have hok : content = .ok bytes := by simpa [step] using hcontent
    obtain ⟨r, hr, hconcerns⟩ : ∃ r ∈ reports, r.concerns v.daemon.configName = true := by
      rwa [hok] at ha
    exact absurd (hreports r hr) (by simp [hconcerns])
  | elsewhere reports =>
    exact .inr ⟨rfl, ((quiet_report hwatches).mp hquiet).1, content_report reports,
      lastRead_report reports⟩
  | deliver n =>
    exact .inr ⟨rfl, quiet_of_deliver hquiet, content_deliver n, lastRead_deliver n⟩
  | advance clock =>
    obtain ⟨hsame, hread | ⟨hquiet', hread⟩⟩ := quiet_of_advance hwatches hquiet
    · exact .inl (hread.trans (congrArg some hsame.symm))
    · exact .inr ⟨rfl, hquiet', hsame, hread⟩

/-- What a step of a watching daemon leaves read, unless something is under way. -/
theorem current_step (hwatches : v.stage.watches = true) (ha : a.Announced v.daemon.configName)
    (h : a.changes = true ∨ v.Current) : (step watching a v).Current := by
  intro bytes hcontent hquiet
  obtain hread | ⟨hkept, hquiet', hcontent', hread'⟩ := quiet_step hwatches ha hcontent hquiet
  · exact hread
  · have hcurrent : v.Current := h.resolve_left (by simp [hkept])
    rw [hread', hcontent']
    exact hcurrent bytes (hcontent' ▸ hcontent) hquiet'

/-- What the daemon has read is current from the first change on. -/
theorem current_run (hwatches : v.stage.watches = true)
    (hannounced : ∀ a ∈ steps, a.Announced v.daemon.configName)
    (h : (∃ a ∈ steps, a.changes = true) ∨ v.Current) : (run watching steps v).Current := by
  induction steps generalizing v with
  | nil => exact h.resolve_left nofun
  | cons a steps ih =>
    refine ih (watches_step hwatches) (fun b hb => ?_) ?_
    · rw [configName_step]
      exact hannounced b (List.mem_cons_of_mem a hb)
    · obtain ⟨b, hb, hchange⟩ | hcurrent := h
      · obtain rfl | hb := List.mem_cons.mp hb
        · exact .inr (current_step hwatches (hannounced b List.mem_cons_self) (.inl hchange))
        · exact .inl ⟨b, hb, hchange⟩
      · exact .inr (current_step hwatches (hannounced a List.mem_cons_self) (.inr hcurrent))

/-- No change is lost once the daemon watches: after any change, when nothing is under way, its last
reading of the file gave what the file holds. -/
theorem last_read_is_current (hwatches : v.stage.watches = true)
    (hannounced : ∀ a ∈ steps, a.Announced v.daemon.configName)
    (hchanged : ∃ a ∈ steps, a.changes = true) {bytes : ByteArray}
    (hcontent : (run watching steps v).content = .ok bytes)
    (hquiet : (run watching steps v).Quiet) :
    (run watching steps v).lastRead = some (.ok bytes) := by
  rw [← hcontent]
  exact current_run hwatches hannounced (.inl hchanged) bytes hcontent hquiet

/-- The second of two notices goes by, as the first has not been taken; and the file changes once
more before it is read. -/
theorem last_read_is_current_of_three_changes :
    let first := "interface=e".toUTF8
    let second := "interface=e\nip_blacklist=1.1.1.1".toUTF8
    let third := "interface=e\nip_blacklist=2.2.2.2".toUTF8
    let saved : List FileReport := [⟨.modified .content, ["/etc/config.txt".toList]⟩]
    let v : Vigil :=
      { daemon := ⟨{}, "/etc/config.txt", { kernel := { maps := [] } }, {}⟩
        content := .ok first
        stage := .idle
        lastRead := some (.ok first) }
    let steps : List Step :=
      [.change (.ok second) saved, .change (.ok second) saved, .deliver 0, .deliver 0, .advance 1,
        .change (.ok third) saved, .advance 1, .deliver 0, .advance 2, .advance 2, .advance 2]
    v.stage.watches = true ∧ (∀ a ∈ steps, a.Announced v.daemon.configName) ∧
      (∃ a ∈ steps, a.changes = true) ∧ (run (.ok ()) steps v).content = .ok third ∧
      (run (.ok ()) steps v).Quiet ∧ (run (.ok ()) steps v).lastRead = some (.ok third) := by
  intro first second third saved v steps
  have hwatches : v.stage.watches = true := rfl
  have hannounced : ∀ a ∈ steps, a.Announced v.daemon.configName := by decide +kernel
  have hchanged : ∃ a ∈ steps, a.changes = true := by decide +kernel
  have hcontent : (run (.ok ()) steps v).content = .ok third := by decide +kernel
  have hquiet : (run (.ok ()) steps v).Quiet := by decide +kernel
  exact ⟨hwatches, hannounced, hchanged, hcontent, hquiet,
    last_read_is_current hwatches hannounced hchanged hcontent hquiet⟩

end Watching

section Registration

variable {watching : Except Failure Unit} {v : Vigil} {a : Step} {steps : List Step}

/-- Nothing was reported to the daemon. -/
structure Untold (v : Vigil) : Prop where
  /-- There are no reports. -/
  undelivered : v.undelivered = []
  /-- There are no notices. -/
  waiting : v.channel.waiting = 0

/-- Nothing is reported to a daemon that does not watch. -/
theorem untold_step (hstage : v.stage.watches = false) (h : v.Untold) :
    (step watching a v).Untold := by
  have hreport (v' : Vigil) (hv' : v'.stage = v.stage) (reports : List FileReport) :
      v'.report reports = v' := if_neg (by simp [hv', hstage])
  cases a with
  | change content reports =>
    have hstep : step watching (.change content reports) v = { v with content := content } :=
      hreport { v with content := content } rfl reports
    rw [hstep]
    exact ⟨h.undelivered, h.waiting⟩
  | elsewhere reports =>
    have hstep : step watching (.elsewhere reports) v = v := hreport v rfl reports
    rw [hstep]
    exact h
  | deliver n =>
    have hstep : step watching (.deliver n) v = v := by
      simp only [step, deliver, h.undelivered, List.getElem?_nil]
    rw [hstep]
    exact h
  | advance clock =>
    simp only [step, advance]
    cases hv : v.stage with
    | idle => simp [hv, Stage.watches] at hstage
    | _ => exact ⟨h.undelivered, h.waiting⟩

/-- How a daemon comes to watch: the program is attached, and watching succeeds. -/
theorem registration (hbefore : v.stage.watches = false)
    (hafter : (step watching a v).stage.watches = true) :
    v.stage = .attached ∧ ∃ clock, a = .advance clock ∧
      step watching a v = { v with stage := .idle } := by
  obtain hsame | ⟨clock, rfl⟩ := stage_step watching a v
  · rw [hsame, hbefore] at hafter
    exact absurd hafter Bool.false_ne_true
  · rw [step, watches_advance, hbefore, Bool.false_or, Bool.and_eq_true] at hafter
    obtain ⟨hattached, hok⟩ := hafter
    have hstage : v.stage = .attached := eq_of_beq hattached
    refine ⟨hstage, clock, rfl, ?_⟩
    simp only [step, advance, hstage, if_pos hok]

/-- A daemon that has come to watch did so at one moment, and nothing was reported to it before. -/
theorem exists_registration (hstage : v.stage.watches = false) (h : v.Untold)
    (hwatches : (run watching steps v).stage.watches = true) :
    ∃ before clock after, steps = before ++ .advance clock :: after ∧
      (run watching before v).stage = .attached ∧ (run watching before v).Untold ∧
      run watching (before ++ [.advance clock]) v =
        { run watching before v with stage := .idle } := by
  induction steps generalizing v with
  | nil => exact absurd (hstage.symm.trans hwatches) Bool.false_ne_true
  | cons a steps ih =>
    cases hnext : (step watching a v).stage.watches with
    | true =>
      obtain ⟨hattached, clock, rfl, hstep⟩ := registration hstage hnext
      exact ⟨[], clock, steps, rfl, hattached, h, hstep⟩
    | false =>
      obtain ⟨before, clock, after, rfl, hattached, huntold, hstep⟩ :=
        ih hnext (untold_step hstage h) hwatches
      exact ⟨a :: before, clock, after, rfl, hattached, huntold, hstep⟩

/-- While the file does not change, a daemon that waits does nothing. -/
theorem idle_step (watching : Except Failure Unit) (hidle : v.stage = .idle) (hquiet : v.Quiet)
    (hkept : a.changes = false)
    (hseparate : a.Separate v.daemon.configName) :
    (step watching a v).stage = .idle ∧ (step watching a v).Quiet ∧
      (step watching a v).content = v.content ∧ (step watching a v).lastRead = v.lastRead := by
  have hwatches : v.stage.watches = true := by rw [hidle]; rfl
  cases a with
  | change content reports => exact absurd hkept Bool.true_eq_false.mp
  | elsewhere reports =>
    exact ⟨(stage_report _).trans hidle, (quiet_report hwatches).mpr ⟨hquiet, hseparate⟩,
      content_report _, lastRead_report _⟩
  | deliver n =>
    refine ⟨(stage_deliver n).trans hidle, ?_, content_deliver n, lastRead_deliver n⟩
    simp only [step, deliver]
    split
    next => exact hquiet
    next r hr =>
      have hconcerns : r.concerns v.daemon.configName = false :=
        hquiet.delivered r (List.mem_of_getElem? hr)
      simp only [hconcerns, Bool.false_eq_true, if_false]
      exact ⟨fun r hr => hquiet.delivered r (List.mem_of_mem_eraseIdx hr), hquiet.received,
        hquiet.read⟩
  | advance clock =>
    have htake : v.channel.receive? = none := Channel.receive?_eq_none_iff.mpr hquiet.received
    have hstep : step watching (.advance clock) v = v := by
      simp only [step, advance, hidle, htake]
    rw [hstep]
    exact ⟨hidle, hquiet, rfl, rfl⟩

/-- While the file does not change, a daemon that waits reads nothing. -/
theorem idle_run (watching : Except Failure Unit) (hidle : v.stage = .idle) (hquiet : v.Quiet)
    (hkept : ∀ a ∈ steps, a.changes = false)
    (hseparate : ∀ a ∈ steps, a.Separate v.daemon.configName) :
    (run watching steps v).content = v.content ∧
      (run watching steps v).lastRead = v.lastRead := by
  induction steps generalizing v with
  | nil => exact ⟨rfl, rfl⟩
  | cons a steps ih =>
    obtain ⟨hidle', hquiet', hcontent, hread⟩ :=
      idle_step watching hidle hquiet (hkept a List.mem_cons_self)
        (hseparate a List.mem_cons_self)
    obtain ⟨hcontent', hread'⟩ := ih hidle' hquiet'
      (fun b hb => hkept b (List.mem_cons_of_mem a hb))
      (fun b hb => by rw [configName_step]; exact hseparate b (List.mem_cons_of_mem a hb))
    exact ⟨hcontent'.trans hcontent, hread'.trans hread⟩

/-- When nothing is under way after a start, the daemon has read what the file holds exactly if the
file had not changed between the first reading and the moment from which it is watched, or has
changed since then. -/
theorem start_is_current_iff (hloaded : v.stage = .loaded) (huntold : v.Untold)
    (hannounced : ∀ a ∈ steps, a.Announced v.daemon.configName)
    (hseparate : ∀ a ∈ steps, a.Separate v.daemon.configName) {bytes : ByteArray}
    (hidle : (run watching steps v).stage = .idle)
    (hcontent : (run watching steps v).content = .ok bytes)
    (hquiet : (run watching steps v).Quiet) :
    ∃ before clock after, steps = before ++ .advance clock :: after ∧
      (run watching before v).stage = .attached ∧
      (run watching (before ++ [.advance clock]) v).stage = .idle ∧
      ((run watching steps v).lastRead = some (.ok bytes) ↔
        (run watching before v).lastRead = some (run watching before v).content ∨
          ∃ a ∈ after, a.changes = true) := by
  have hwatches : (run watching steps v).stage.watches = true := by rw [hidle]; rfl
  obtain ⟨before, clock, after, rfl, hattached, huntold', hregister⟩ :=
    exists_registration (by rw [hloaded]; rfl) huntold hwatches
  refine ⟨before, clock, after, rfl, hattached, by rw [hregister], ?_⟩
  let registered : Vigil := { run watching before v with stage := .idle }
  have hname : registered.daemon.configName = v.daemon.configName := configName_run
  have hafter : ∀ a ∈ after, a ∈ before ++ .advance clock :: after := fun a ha =>
    List.mem_append_right _ (List.mem_cons_of_mem _ ha)
  have hrun : run watching (before ++ .advance clock :: after) v =
      run watching after registered := by
    rw [← List.singleton_append, ← List.append_assoc]
    exact (List.foldl_append).trans (congrArg (run watching after) hregister)
  rw [hrun] at hcontent hquiet ⊢
  by_cases hchanged : ∃ a ∈ after, a.changes = true
  · have hannounced' : ∀ a ∈ after, a.Announced registered.daemon.configName := fun a ha => by
      rw [hname]
      exact hannounced a (hafter a ha)
    have hcurrent : (run watching after registered).Current :=
      current_run rfl hannounced' (.inl hchanged)
    rw [← hcontent]
    exact iff_of_true (hcurrent bytes hcontent hquiet) (.inr hchanged)
  · have hquiet' : registered.Quiet :=
      ⟨fun r hr => by simp [registered, huntold'.undelivered] at hr, huntold'.waiting,
        Stage.noConfusion⟩
    have hkept : ∀ a ∈ after, a.changes = false := fun a ha =>
      Bool.of_not_eq_true fun h => hchanged ⟨a, ha, h⟩
    have hseparate' : ∀ a ∈ after, a.Separate registered.daemon.configName := fun a ha => by
      rw [hname]
      exact hseparate a (hafter a ha)
    obtain ⟨hsame, hread⟩ := idle_run watching rfl hquiet' hkept hseparate'
    rw [hread, ← hcontent, hsame]
    exact ⟨.inl, fun h => h.resolve_right hchanged⟩

/-- The file changes before it is watched and again afterwards, and only the latter is reported. -/
theorem start_is_current_after_second_change :
    let first := "interface=e".toUTF8
    let second := "interface=e\nip_blacklist=1.1.1.1".toUTF8
    let third := "interface=e\nip_blacklist=2.2.2.2".toUTF8
    let saved : List FileReport := [⟨.modified .content, ["/etc/config.txt".toList]⟩]
    let v : Vigil :=
      { daemon := ⟨{}, "/etc/config.txt", { kernel := { maps := [] } }, {}⟩
        content := .ok first
        stage := .loaded }
    let starting : List Step :=
      [.advance 1, .advance 1, .change (.ok second) saved, .advance 1, .advance 1]
    let watching : List Step :=
      [.change (.ok third) saved, .deliver 0, .advance 2, .advance 2, .advance 2]
    let final := run (.ok ()) (starting ++ watching) v
    v.stage = .loaded ∧ v.Untold ∧
      (∀ a ∈ starting ++ watching, a.Announced v.daemon.configName) ∧
      (∀ a ∈ starting ++ watching, a.Separate v.daemon.configName) ∧ final.stage = .idle ∧
      final.content = .ok third ∧ final.Quiet ∧
      ∃ before clock after, starting ++ watching = before ++ .advance clock :: after ∧
        (run (.ok ()) before v).stage = .attached ∧
        (run (.ok ()) (before ++ [.advance clock]) v).stage = .idle ∧
        (final.lastRead = some (.ok third) ↔
          (run (.ok ()) before v).lastRead = some (run (.ok ()) before v).content ∨
            ∃ a ∈ after, a.changes = true) := by
  intro first second third saved v starting watching final
  have huntold : v.Untold := ⟨rfl, rfl⟩
  have hannounced : ∀ a ∈ starting ++ watching, a.Announced v.daemon.configName := by
    decide +kernel
  have hseparate : ∀ a ∈ starting ++ watching, a.Separate v.daemon.configName := by
    decide +kernel
  have hidle : final.stage = .idle := by decide +kernel
  have hcontent : final.content = .ok third := by decide +kernel
  have hquiet : final.Quiet := by decide +kernel
  exact ⟨rfl, huntold, hannounced, hseparate, hidle, hcontent, hquiet,
    start_is_current_iff rfl huntold hannounced hseparate hidle hcontent hquiet⟩

/-- A change between the first reading and the moment from which the file is watched: nothing is
under way, and yet the daemon has not read what the file holds. -/
theorem start_is_stale_after_early_change :
    let first := "interface=e\nip_blacklist=1.1.1.1".toUTF8
    let second := "interface=e\nip_blacklist=2.2.2.2".toUTF8
    let saved : List FileReport := [⟨.modified .content, ["/etc/config.txt".toList]⟩]
    let v : Vigil :=
      { daemon := ⟨{}, "/etc/config.txt", { kernel := { maps := [] } }, {}⟩
        content := .ok first
        stage := .loaded }
    let steps : List Step :=
      [.advance 1, .change (.ok second) saved, .advance 1, .advance 1, .advance 1]
    let final := run (.ok ()) steps v
    (∀ a ∈ steps, a.Announced v.daemon.configName) ∧ final.stage = .idle ∧ final.Quiet ∧
      final.content = .ok second ∧ final.lastRead = some (.ok first) ∧ first ≠ second := by
  decide +kernel

end Registration

end Vigil

end SourceFilter
