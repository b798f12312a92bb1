import SourceFilter.Classifier
import SourceFilter.Daemon.Service
import SourceFilter.Proofs.Run

/-!
# Sessions

In a session a service makes passes and judges packets, in any order. Any of the calls of a pass may
fail before it reaches the store. What every call of a pass keeps of the book and the store, the
pass keeps.
-/

namespace SourceFilter

/-- Which calls of a pass fail, and why: a call is known by its number and its mutation. -/
abbrev Faults := Nat → Mutation → Option StoreError

/-- A store that some calls do not reach. -/
structure Faulty (σ : Type) where
  /-- The store. -/
  store : σ
  /-- The calls that fail. -/
  faults : Faults
  /-- How many calls were made. -/
  calls : Nat := 0

instance {σ : Type} [Store σ] : Store (Faulty σ) where
  perform m f :=
    match f.faults f.calls m with
    | some e => (.error e, { f with calls := f.calls + 1 })
    | none =>
      let (outcome, store) := Store.perform m f.store
      (outcome, { f with store := store, calls := f.calls + 1 })

namespace Faulty

variable {σ : Type} [Store σ] {f : Faulty σ} {m : Mutation}

/-- A call that fails does not reach the store. -/
theorem perform_of_fault {e : StoreError} (h : f.faults f.calls m = some e) :
    Store.perform m f = (.error e, { f with calls := f.calls + 1 }) := by
  simp only [Store.perform, h]

/-- A call that does not fail is answered by the store. -/
theorem perform_of_no_fault (h : f.faults f.calls m = none) :
    Store.perform m f = ((Store.perform m f.store).1,
      { f with store := (Store.perform m f.store).2, calls := f.calls + 1 }) := by
  simp only [Store.perform, h]

end Faulty

/-- A type of stores that also judge packets. -/
class Judge (σ : Type) extends Store σ where
  /-- Judges a packet of a source that arrives at a time. -/
  judge : Address → UInt64 → σ → Verdict × σ

instance {capacity : Nat} : Judge (Tables capacity) where
  judge source now t := t.classify source now

/-- One thing that a service does. -/
inductive Move where
  /-- Makes a pass with a configuration text at a time of the clock. -/
  | pass (clock : UInt64) (faults : Faults) (raw : String)
  /-- Judges a packet of a source that arrives at a time. -/
  | packet (source : Address) (now : UInt64)

/-- What is seen of a move. -/
inductive Response where
  /-- The result of a pass, and the calls that were made. -/
  | pass (result : Except ConfigError Report) (calls : List Call)
  /-- What becomes of a packet. -/
  | packet (verdict : Verdict)

/-- The mutations that took effect. -/
def Response.effects : Response → List Mutation
  | .pass _ calls => (calls.filter Call.succeeded).map fun call => call.change.mutation
  | .packet _ => []

namespace Service

variable {σ : Type}

/-- Makes a pass some of whose calls fail. -/
def pass [Store σ] (s : Service σ) (clock : UInt64) (faults : Faults) (raw : String) :
    Pass (Faulty σ) :=
  reconcileText clock raw s.book { store := s.store, faults := faults }

/-- Makes one move. -/
def move [Judge σ] : Move → Service σ → Response × Service σ
  | .pass clock faults raw, s =>
    let p := s.pass clock faults raw
    (.pass p.result p.calls, ⟨p.book, p.store.store⟩)
  | .packet source now, s =>
    let (verdict, store) := Judge.judge source now s.store
    (.packet verdict, { s with store := store })

end Service

namespace Book

/-- The book after a call with an outcome. -/
def hear (book : Book) (change : Change) (outcome : Except StoreError Unit) : Book :=
  if outcome.isOk then book.learn change else book

/-- The book learns of a change that took effect. -/
theorem hear_ok (book : Book) (change : Change) :
    book.hear change (.ok ()) = book.learn change := by
  rw [hear, Except.isOk, Except.toBool, if_pos rfl]

/-- The book does not hear of a change that failed. -/
theorem hear_error (book : Book) (change : Change) (e : StoreError) :
    book.hear change (.error e) = book := by
  rw [hear, Except.isOk, Except.toBool, if_neg Bool.false_ne_true]

end Book

section Passes

variable {σ : Type} [Store σ] {book : Book} {s : σ}

/-- The first change is tried, then the others. -/
theorem carryOut_cons (change : Change) (changes : List Change) (book : Book) (s : σ) :
    carryOut (change :: changes) book s =
      let call := Store.perform change.mutation s
      let rest := carryOut changes (book.hear change call.1) call.2
      (⟨change, call.1⟩ :: rest.1, rest.2) := rfl

/-- The changes of two lists are tried one list after the other. -/
theorem carryOut_append (xs ys : List Change) (book : Book) (s : σ) :
    carryOut (xs ++ ys) book s =
      let first := carryOut xs book s
      let rest := carryOut ys first.2.1 first.2.2
      (first.1 ++ rest.1, rest.2) := by
  induction xs generalizing book s with
  | nil => rfl
  | cons change xs ih =>
    rw [List.cons_append, carryOut_cons, carryOut_cons]
    simp only [ih, List.cons_append]

/-- Every call for a change of some kind keeps a property of the book and the store. -/
def Keeps (P : Change → Prop) (Q : Book → σ → Prop) : Prop :=
  ∀ change book s, P change → Q book s →
    Q (book.hear change (Store.perform change.mutation s).1) (Store.perform change.mutation s).2

/-- What is kept by every call for a change is kept by all of them. -/
theorem carryOut_invariant {P : Change → Prop} {Q : Book → σ → Prop} (hkeeps : Keeps P Q)
    {changes : List Change} (hchanges : ∀ change ∈ changes, P change) (h : Q book s) :
    Q (carryOut changes book s).2.1 (carryOut changes book s).2.2 := by
  induction changes generalizing book s with
  | nil => exact h
  | cons change changes ih =>
    obtain ⟨hchange, hrest⟩ := List.forall_mem_cons.1 hchanges
    rw [carryOut_cons]
    exact ih hrest (hkeeps change book s hchange h)

/-- What is kept by every call for a change, and does not depend on the interface, is kept by a
pass. -/
theorem reconcile_invariant {P : Change → Prop} {Q : Book → σ → Prop} (hkeeps : Keeps P Q)
    (hbind : ∀ interface book s, Q book s → Q { book with interface := some interface } s)
    {clock : UInt64} {config : Config} (hplan : ∀ change ∈ book.plan clock config, P change)
    (h : Q book s) :
    Q (reconcile clock config book s).book (reconcile clock config book s).store := by
  unfold reconcile
  cases book.interfaceFor config with
  | error e => exact h
  | ok binding => exact hbind binding.1 _ _ (carryOut_invariant hkeeps hplan h)

/-- A call that does not reach the store keeps what a call that is refused keeps. -/
theorem Keeps.faulty {P : Change → Prop} {Q : Book → σ → Prop} (hkeeps : Keeps P Q) :
    Keeps P fun book (f : Faulty σ) => Q book f.store := by
  intro change book f hchange h
  cases hfault : f.faults f.calls change.mutation with
  | some e =>
    rw [Faulty.perform_of_fault hfault, Book.hear_error]
    exact h
  | none =>
    rw [Faulty.perform_of_no_fault hfault]
    exact hkeeps change book f.store hchange h

end Passes

section Alike

variable {σ τ : Type} {book : Book} {s : σ} {t : τ}

/-- Related stores answer every mutation alike and stay related. -/
def Alike [Store σ] [Store τ] (R : σ → τ → Prop) : Prop :=
  ∀ m s t, R s t →
    (Store.perform m s).1 = (Store.perform m t).1 ∧ R (Store.perform m s).2 (Store.perform m t).2

/-- Related stores behind the same faults. -/
structure Faulty.Related (R : σ → τ → Prop) (f : Faulty σ) (g : Faulty τ) : Prop where
  /-- The stores are related. -/
  store : R f.store g.store
  /-- The same calls fail. -/
  faults : f.faults = g.faults
  /-- Equally many calls were made. -/
  calls : f.calls = g.calls

namespace Alike

variable [Store σ] [Store τ] {R : σ → τ → Prop}

/-- The same faults keep stores alike. -/
theorem faulty (h : Alike R) : Alike (Faulty.Related R) := by
  rintro m f g ⟨hR, hfaults, hcalls⟩
  have hcalls' : f.calls + 1 = g.calls + 1 := congrArg Nat.succ hcalls
  have hsame : g.faults g.calls m = f.faults f.calls m := by rw [hfaults, hcalls]
  cases hfault : f.faults f.calls m with
  | some e =>
    rw [Faulty.perform_of_fault hfault, Faulty.perform_of_fault (hsame.trans hfault)]
    exact ⟨rfl, hR, hfaults, hcalls'⟩
  | none =>
    obtain ⟨hanswer, hafter⟩ := h m f.store g.store hR
    rw [Faulty.perform_of_no_fault hfault, Faulty.perform_of_no_fault (hsame.trans hfault)]
    exact ⟨hanswer, hafter, hfaults, hcalls'⟩

/-- The changes of a plan are answered alike, and the book learns the same. -/
theorem carryOut (h : Alike R) (hR : R s t) (changes : List Change) (book : Book) :
    let after := SourceFilter.carryOut changes book s
    let after' := SourceFilter.carryOut changes book t
    after.1 = after'.1 ∧ after.2.1 = after'.2.1 ∧ R after.2.2 after'.2.2 := by
  induction changes generalizing book s t with
  | nil => exact ⟨rfl, rfl, hR⟩
  | cons change changes ih =>
    obtain ⟨hanswer, hafter⟩ := h change.mutation s t hR
    obtain ⟨hcalls, hbook, hlast⟩ :=
      ih hafter (book.hear change (Store.perform change.mutation s).1)
    rw [carryOut_cons, carryOut_cons]
    simp only [← hanswer, hcalls]
    exact ⟨trivial, hbook, hlast⟩

/-- A pass has the same result over related stores. -/
theorem reconcile (h : Alike R) (hR : R s t) (clock : UInt64) (config : Config) (book : Book) :
    let p := SourceFilter.reconcile clock config book s
    let q := SourceFilter.reconcile clock config book t
    p.result = q.result ∧ p.calls = q.calls ∧ p.book = q.book ∧ R p.store q.store := by
  obtain ⟨hcalls, hbook, hlast⟩ := h.carryOut hR (book.plan clock config) book
  simp only [SourceFilter.reconcile]
  cases book.interfaceFor config with
  | error e => exact ⟨rfl, rfl, rfl, hR⟩
  | ok binding =>
    simp only [hcalls, hbook]
    exact ⟨trivial, trivial, trivial, hlast⟩

end Alike

/-- Services that know the same, over related stores. -/
structure Service.Related (R : σ → τ → Prop) (a : Service σ) (b : Service τ) : Prop where
  /-- They know the same. -/
  book : a.book = b.book
  /-- The stores are related. -/
  store : R a.store b.store

/-- Services over related stores make a pass alike. -/
theorem Alike.pass [Judge σ] [Judge τ] {R : σ → τ → Prop} (h : Alike R) {a : Service σ}
    {b : Service τ} (hab : a.Related R b) (clock : UInt64) (faults : Faults) (raw : String) :
    let m := Move.pass clock faults raw
    (Service.move m a).1 = (Service.move m b).1 ∧
      (Service.move m a).2.Related R (Service.move m b).2 := by
  obtain ⟨book, s⟩ := a
  obtain ⟨book', t⟩ := b
  obtain ⟨hbook, hR⟩ := hab
  simp only at hbook hR
  subst hbook
  obtain ⟨hresult, hcalls, hbook, hlast⟩ := h.faulty.reconcile
    (s := { store := s, faults := faults }) (t := { store := t, faults := faults })
    ⟨hR, rfl, rfl⟩ clock (Config.parse raw) book
  refine ⟨?_, hbook, hlast.store⟩
  exact (congrArg (Response.pass · _) hresult).trans (congrArg (Response.pass _) hcalls)

/-- Services over related stores that also judge packets alike answer a move alike. -/
theorem Alike.move [Judge σ] [Judge τ] {R : σ → τ → Prop} (h : Alike R)
    (hjudge : ∀ source now s t, R s t →
      (Judge.judge source now s).1 = (Judge.judge source now t).1 ∧
        R (Judge.judge source now s).2 (Judge.judge source now t).2)
    (m : Move) (a : Service σ) (b : Service τ) (hab : a.Related R b) :
    (Service.move m a).1 = (Service.move m b).1 ∧
      (Service.move m a).2.Related R (Service.move m b).2 := by
  cases m with
  | pass clock faults raw => exact h.pass hab clock faults raw
  | packet source now =>
    obtain ⟨hverdict, hafter⟩ := hjudge source now a.store b.store hab.store
    exact ⟨congrArg Response.packet hverdict, hab.book, hafter⟩

/-- They answer alike in every session. -/
theorem Alike.run [Judge σ] [Judge τ] {R : σ → τ → Prop} (h : Alike R)
    (hjudge : ∀ source now s t, R s t →
      (Judge.judge source now s).1 = (Judge.judge source now t).1 ∧
        R (Judge.judge source now s).2 (Judge.judge source now t).2)
    (hR : R s t) (moves : List Move) :
    let run := runAll Service.move moves { store := s }
    let run' := runAll Service.move moves { store := t }
    run.1 = run'.1 ∧ run.2.book = run'.2.book ∧ R run.2.store run'.2.store := by
  obtain ⟨hanswers, hbook, hstore⟩ := runAll_simulation (h.move hjudge)
    (s := { store := s }) (t := { store := t }) ⟨rfl, hR⟩ moves
  exact ⟨hanswers, hbook, hstore⟩

end Alike

end SourceFilter
