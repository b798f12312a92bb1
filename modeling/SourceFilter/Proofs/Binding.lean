import SourceFilter.Proofs.ConfigText
import SourceFilter.Proofs.Session

/-!
# The interface that is bound

The first pass with a configuration that names an interface binds it, whatever becomes of its calls,
and from then on the passes with this interface are made and all others are turned down. A pass that
is turned down makes no call and leaves everything as it was, so a session goes on as if it had not
been there.
-/

namespace SourceFilter

namespace Move

/-- The interface that the configuration of a pass names. -/
def interface? : Move → Option String
  | .pass _ _ raw => (Config.parse raw).interface
  | .packet _ _ => none

/-- The interface that some moves bind: the first one that is named. -/
def binding (moves : List Move) : Option String := moves.findSome? interface?

end Move

namespace Response

/-- Whether a pass was turned down. -/
def turnedDown : Response → Bool
  | .pass (.error _) _ => true
  | .pass (.ok _) _ => false
  | .packet _ => false

/-- Whether a pass reports that it bound its interface. -/
def binds : Response → Bool
  | .pass (.error _) _ => false
  | .pass (.ok report) _ => report.firstBinding
  | .packet _ => false

end Response

section Reconcile

variable {σ : Type} [Store σ] {book : Book} {config : Config} {clock : UInt64} {s : σ}

/-- A pass is turned down and does nothing when its configuration names no interface, or another one
than the bound one. Otherwise its report tells whether the interface is the first one, and it is
bound afterwards. -/
theorem reconcile_cases (clock : UInt64) (config : Config) (book : Book) (s : σ) :
    let p := reconcile clock config book s
    (config.interface = none ∧ p = ⟨.error .missingInterface, [], book, s⟩) ∨
    (∃ bound name, book.interface = some bound ∧ config.interface = some name ∧ bound ≠ name ∧
      p = ⟨.error (.interfaceChange bound name), [], book, s⟩) ∨
    ∃ report, p.result = .ok report ∧ config.interface = some report.interface ∧
      p.book.interface = some report.interface ∧
      (book.interface = none ∧ report.firstBinding = true ∨
        book.interface = some report.interface ∧ report.firstBinding = false) := by
  simp only [reconcile, Book.interfaceFor]
  cases hconfig : config.interface with
  | none => exact .inl ⟨rfl, rfl⟩
  | some name =>
    cases hbook : book.interface with
    | none => exact .inr (.inr ⟨_, rfl, rfl, rfl, .inl ⟨rfl, rfl⟩⟩)
    | some bound =>
      by_cases hname : bound = name
      · simp only [if_pos hname]
        exact .inr (.inr ⟨_, rfl, rfl, rfl, .inr ⟨congrArg some hname, rfl⟩⟩)
      · simp only [if_neg hname]
        exact .inr (.inl ⟨bound, name, rfl, rfl, hname, rfl⟩)

/-- A pass that is turned down makes no call and leaves everything as it was. -/
theorem reconcile_of_error {e : ConfigError}
    (he : (reconcile clock config book s).result = .error e) :
    reconcile clock config book s = ⟨.error e, [], book, s⟩ := by
  rcases reconcile_cases clock config book s with ⟨-, hp⟩ | ⟨bound, name, -, -, -, hp⟩ |
    ⟨report, hok, -⟩
  · rw [hp] at he ⊢
    cases he
    rfl
  · rw [hp] at he ⊢
    cases he
    rfl
  · rw [hok] at he
    cases he

/-- A pass is turned down for want of an interface exactly when its configuration names none, and
for a change exactly when another one is bound. Otherwise it is made, its report names the interface
and tells whether it is the first one, and it is bound afterwards. -/
theorem reconcile_decides (clock : UInt64) (config : Config) (book : Book) (s : σ) :
    let p := reconcile clock config book s
    (p.result = .error .missingInterface ↔ config.interface = none) ∧
    (∀ old new, p.result = .error (.interfaceChange old new) ↔
      book.interface = some old ∧ config.interface = some new ∧ old ≠ new) ∧
    (∀ name, (∃ report, p.result = .ok report ∧ report.interface = name) ↔
      config.interface = some name ∧ (book.interface = none ∨ book.interface = some name)) ∧
    ∀ report, p.result = .ok report →
      p.book.interface = some report.interface ∧ (report.firstBinding ↔ book.interface = none) := by
  intro p
  rcases reconcile_cases clock config book s with ⟨hconfig, hp⟩ |
    ⟨bound, name, hbook, hconfig, hne, hp⟩ | ⟨report, hok, hconfig, hafter, hfirst⟩
  · have hresult : p.result = .error .missingInterface := congrArg Pass.result hp
    simp [hresult, hconfig]
  · have hresult : p.result = .error (.interfaceChange bound name) := congrArg Pass.result hp
    refine ⟨by simp [hresult, hconfig], fun old new => ?_, fun name' => ?_, by simp [hresult]⟩
    · rw [hresult, hbook, hconfig]
      simp only [Except.error.injEq, ConfigError.interfaceChange.injEq, Option.some.injEq]
      constructor
      · rintro ⟨rfl, rfl⟩
        exact ⟨rfl, rfl, hne⟩
      · rintro ⟨rfl, rfl, -⟩
        exact ⟨rfl, rfl⟩
    · rw [hresult, hbook, hconfig]
      simp only [reduceCtorEq, false_and, exists_false, Option.some.injEq, false_or, false_iff]
      rintro ⟨rfl, rfl⟩
      exact hne rfl
  · have hresult : p.result = .ok report := hok
    have hbound : book.interface = none ∨ book.interface = some report.interface :=
      hfirst.imp And.left And.left
    refine ⟨by simp [hresult, hconfig], fun old new => ?_, fun name => ?_, fun report' hok' => ?_⟩
    · rw [hresult, hconfig]
      simp only [reduceCtorEq, false_iff]
      rintro ⟨hold, hnew, hne⟩
      rcases hbound with hnone | hsome
      · rw [hnone] at hold
        cases hold
      · exact hne (Option.some.inj (hold.symm.trans (hsome.trans hnew)))
    · rw [hresult, hconfig]
      constructor
      · rintro ⟨_, hreport, rfl⟩
        cases hreport
        exact ⟨rfl, hbound⟩
      · rintro ⟨hname, -⟩
        exact ⟨report, rfl, Option.some.inj hname⟩
    · rw [hresult] at hok'
      cases hok'
      refine ⟨hafter, ?_⟩
      rcases hfirst with ⟨hbook, hfirst⟩ | ⟨hbook, hfirst⟩
      · simp [hbook, hfirst]
      · simp [hbook, hfirst]

end Reconcile

namespace Service

variable {σ : Type}

/-- A pass that is turned down has made no call, and the book and the store are as they were. -/
theorem pass_of_error [Store σ] {s : Service σ} {clock : UInt64} {faults : Faults} {raw : String}
    {e : ConfigError} (he : (s.pass clock faults raw).result = .error e) :
    s.pass clock faults raw = ⟨.error e, [], s.book, { store := s.store, faults := faults }⟩ :=
  reconcile_of_error he

variable [Judge σ]

/-- What a pass that is turned down leaves of a service is the service. -/
theorem move_of_error {s : Service σ} {clock : UInt64} {faults : Faults} {raw : String}
    {e : ConfigError} (he : (s.pass clock faults raw).result = .error e) :
    move (.pass clock faults raw) s = (.pass (.error e) [], s) := by
  rw [move, pass_of_error he]

/-- Only a pass that is turned down is answered so, and it leaves the service as it was. -/
theorem move_of_turnedDown (m : Move) (s : Service σ) (h : (move m s).1.turnedDown = true) :
    (move m s).2 = s := by
  cases m with
  | packet source now => cases h
  | pass clock faults raw =>
    cases hresult : (s.pass clock faults raw).result with
    | error e => rw [move_of_error hresult]
    | ok report =>
      rw [move, hresult] at h
      cases h

/-- A move binds the interface that it names if none was bound. -/
theorem interface_move (m : Move) (s : Service σ) :
    (move m s).2.book.interface = s.book.interface.or m.interface? := by
  cases m with
  | packet source now => exact (Option.or_none).symm
  | pass clock faults raw =>
    have hcases := reconcile_cases clock (Config.parse raw) s.book
      ({ store := s.store, faults := faults } : Faulty σ)
    simp only [move, pass, reconcileText, Move.interface?]
    rcases hcases with ⟨hconfig, hp⟩ | ⟨bound, name, hbook, -, -, hp⟩ |
      ⟨report, -, hconfig, hafter, hbook⟩
    · rw [hp, hconfig, Option.or_none]
    · rw [hp, hbook, Option.some_or]
    · rw [hafter, hconfig]
      rcases hbook with ⟨hbook, -⟩ | ⟨hbook, -⟩
      · rw [hbook, Option.none_or]
      · rw [hbook, Option.some_or]

/-- A pass reports that it bound its interface when it names one and none was bound. -/
theorem binds_move (m : Move) (s : Service σ) :
    (move m s).1.binds = (s.book.interface.isNone && m.interface?.isSome) := by
  cases m with
  | packet source now => exact (Bool.and_false _).symm
  | pass clock faults raw =>
    have hcases := reconcile_cases clock (Config.parse raw) s.book
      ({ store := s.store, faults := faults } : Faulty σ)
    simp only [move, pass, reconcileText, Move.interface?]
    rcases hcases with ⟨hconfig, hp⟩ | ⟨bound, name, hbook, -, -, hp⟩ |
      ⟨report, hok, hconfig, -, hbook⟩
    · rw [hp, hconfig]
      exact (Bool.and_false _).symm
    · rw [hp, hbook]
      rfl
    · rw [hok, hconfig]
      rcases hbook with ⟨hbook, hfirst⟩ | ⟨hbook, hfirst⟩
      · rw [hbook]
        exact hfirst
      · rw [hbook]
        exact hfirst

/-- The first interface that is named is that of the first move, or else that of a later one. -/
theorem binding_cons (m : Move) (moves : List Move) :
    Move.binding (m :: moves) = m.interface?.or (Move.binding moves) := by
  rw [Move.binding, List.findSome?_cons]
  cases m.interface? with
  | none => rfl
  | some name => rfl

/-- A session binds the first interface that is named in it if none was bound. -/
theorem interface_run (moves : List Move) (s : Service σ) :
    (runAll move moves s).2.book.interface = s.book.interface.or (Move.binding moves) := by
  induction moves generalizing s with
  | nil => exact (Option.or_none).symm
  | cons m moves ih =>
    rw [binding_cons, ← Option.or_assoc, ← interface_move]
    exact ih (move m s).2

/-- At most one pass of a session reports that it bound its interface: one does when an interface is
named and none was bound. -/
theorem countP_binds_run (moves : List Move) (s : Service σ) :
    (runAll move moves s).1.countP Response.binds =
      if s.book.interface.isNone && (Move.binding moves).isSome then 1 else 0 := by
  induction moves generalizing s with
  | nil => rw [Move.binding, List.findSome?_nil, Option.isSome_none, Bool.and_false]; rfl
  | cons m moves ih =>
    have hrest := ih (move m s).2
    rw [interface_move] at hrest
    have hcount : (runAll move (m :: moves) s).1.countP Response.binds =
        (runAll move moves (move m s).2).1.countP Response.binds +
          if (move m s).1.binds then 1 else 0 := List.countP_cons
    rw [hcount, hrest, binds_move, binding_cons]
    cases s.book.interface with
    | some bound => rfl
    | none =>
      cases m.interface? with
      | some name => rfl
      | none => rfl

/-- Sessions bind one interface for good. Let any moves be made over any store, with any calls
failing. The interface that is bound is the first one that a configuration names in its last line
about the interface, and exactly one pass reports that it bound it, if there is one. A pass is
turned down for want of an interface when its configuration names none, and for a change when
another one is bound; otherwise it is made, and its report names the interface. A pass that is
turned down makes no call and leaves the book and the store as they were. So the session without
it, and without all passes that are turned down, has the same responses otherwise and leads to the
same state. -/
theorem binds_one_interface (store : σ) (moves : List Move) :
    let start : Service σ := { store := store }
    let run := runAll move moves start
    let kept := (moves.zip run.1).filter fun m => !m.2.turnedDown
    run.2.book.interface = Move.binding moves ∧
    run.1.countP Response.binds = (if (Move.binding moves).isSome then 1 else 0) ∧
    runAll move (kept.map Prod.fst) start = (kept.map Prod.snd, run.2) ∧
    ∀ front clock faults raw back, moves = front ++ .pass clock faults raw :: back →
      let bound := Move.binding front
      let named := (Config.parse raw).interface
      let before := runAll move front start
      let p := before.2.pass clock faults raw
      (∀ name, named = some name ↔
        (Config.valuesOf .interface (Config.settings raw.toList)).getLast? = some name.toList ∧
          name ≠ "") ∧
      (p.result = .error .missingInterface ↔ named = none) ∧
      (∀ old new, p.result = .error (.interfaceChange old new) ↔
        bound = some old ∧ named = some new ∧ old ≠ new) ∧
      (∀ name, (∃ report, p.result = .ok report ∧ report.interface = name) ↔
        named = some name ∧ (bound = none ∨ bound = some name)) ∧
      (∀ report, p.result = .ok report →
        p.book.interface = some report.interface ∧ (report.firstBinding ↔ bound = none)) ∧
      ∀ e, p.result = .error e →
        let after := runAll move back before.2
        p = ⟨.error e, [], before.2.book, { store := before.2.store, faults := faults }⟩ ∧
        run.1 = before.1 ++ .pass (.error e) [] :: after.1 ∧
        run.2 = after.2 ∧
        runAll move (front ++ back) start = (before.1 ++ after.1, after.2) := by
  intro start run kept
  refine ⟨?_, ?_, runAll_filter move_of_turnedDown moves start, ?_⟩
  · exact (interface_run moves start).trans (Option.none_or)
  · exact countP_binds_run moves start
  · intro front clock faults raw back hmoves bound named before p
    have hbound : before.2.book.interface = bound :=
      (interface_run front start).trans (Option.none_or)
    obtain ⟨hmissing, hchange, hmade, hreport⟩ := reconcile_decides clock (Config.parse raw)
      before.2.book ({ store := before.2.store, faults := faults } : Faulty σ)
    rw [hbound] at hchange hmade hreport
    refine ⟨fun name => ?_, hmissing, hchange, hmade, hreport, fun e he => ?_⟩
    · unfold named
      rw [Config.parse_eq_said]
      exact Config.said_interface
    · intro after
      have hmove : move (.pass clock faults raw) before.2 = (.pass (.error e) [], before.2) :=
        move_of_error he
      have hresponses : run.1 = before.1 ++ .pass (.error e) [] :: after.1 := by
        unfold run
        rw [hmoves, answers_append, runAll, hmove]
      have hlast : run.2 = after.2 := by
        unfold run
        rw [hmoves, runAll_append, runAll, hmove]
      refine ⟨pass_of_error he, hresponses, hlast, ?_⟩
      exact Prod.ext (answers_append front back start) (runAll_append front back start)

/-- A pass binds its interface although all of its calls fail. The pass before it is turned down,
since its last line about the interface names none, and so is the pass after it, which names
another one; without that one, a packet is judged the same. -/
theorem binds_one_interface_with_failing_calls :
    let start : Service (Tables 1) := { store := Tables.empty }
    let empty : Move := .pass 1 (fun _ _ => none) "interface=e\ninterface="
    let refused : Faults := fun _ m => some (.failed m.part "no")
    let failing : Move := .pass 2 refused "interface=e\nip_blacklist=9.9.9.9"
    let packet : Move := .packet (Address.ofOctets 9 9 9 9) 0
    let moves := [empty, failing, .pass 3 (fun _ _ => none) "interface=f", packet]
    let run := runAll move moves start
    run.2.book.interface = some "e" ∧ run.1.countP Response.binds = 1 ∧
      run.1.map Response.turnedDown = [true, false, true, false] ∧
      (runAll move [empty, failing, packet] start).2 = run.2 := by
  intro start empty refused failing packet moves run
  have hbinding : Move.binding moves = some "e" := by decide +kernel
  have hmoves :
      moves = [empty, failing] ++ .pass 3 (fun _ _ => none) "interface=f" :: [packet] := rfl
  obtain ⟨hinterface, hcount, -, hpasses⟩ := binds_one_interface (Tables.empty : Tables 1) moves
  obtain ⟨-, -, hchange, -, -, hskip⟩ := hpasses _ _ _ _ _ hmoves
  have herror := (hchange "e" "f").2 ⟨by decide +kernel, by decide +kernel, by decide⟩
  obtain ⟨-, -, hlast, hwithout⟩ := hskip _ herror
  refine ⟨hinterface.trans hbinding, ?_, by decide +kernel, ?_⟩
  · rw [hcount, hbinding]
    rfl
  · exact (congrArg Prod.snd hwithout).trans hlast.symm

end Service

end SourceFilter
