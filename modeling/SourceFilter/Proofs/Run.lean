/-!
# Runs

A run takes steps one after the other and collects what they answer. What every step keeps, a run
keeps, and two systems whose steps answer alike answer alike in every run.
-/

namespace SourceFilter

/-- Takes the steps one after the other: their answers, and the state after them. -/
def runAll {α β σ : Type} (step : α → σ → β × σ) : List α → σ → List β × σ
  | [], s => ([], s)
  | a :: as, s =>
    let (b, s) := step a s
    let (bs, s) := runAll step as s
    (b :: bs, s)

variable {α β σ τ : Type} {step : α → σ → β × σ} {step' : α → τ → β × τ}

/-- What each of some steps keeps, a run of these steps keeps. -/
theorem runAll_invariant_of_mem {P : σ → Prop} {as : List α}
    (hstep : ∀ a ∈ as, ∀ s, P s → P (step a s).2) {s : σ} (h : P s) : P (runAll step as s).2 := by
  induction as generalizing s with
  | nil => exact h
  | cons a as ih =>
    obtain ⟨hfirst, hrest⟩ := List.forall_mem_cons.1 hstep
    exact ih hrest (hfirst s h)

/-- What every step keeps, a run keeps. -/
theorem runAll_invariant {P : σ → Prop} (hstep : ∀ a s, P s → P (step a s).2) {s : σ} (h : P s)
    (as : List α) : P (runAll step as s).2 :=
  runAll_invariant_of_mem (fun a _ => hstep a) h

/-- Systems whose steps answer alike and keep a relation answer alike in every run. -/
theorem runAll_simulation {R : σ → τ → Prop}
    (hstep : ∀ a s t, R s t → (step a s).1 = (step' a t).1 ∧ R (step a s).2 (step' a t).2)
    {s : σ} {t : τ} (h : R s t) (as : List α) :
    (runAll step as s).1 = (runAll step' as t).1 ∧
      R (runAll step as s).2 (runAll step' as t).2 := by
  induction as generalizing s t with
  | nil => exact ⟨rfl, h⟩
  | cons a as ih =>
    obtain ⟨hanswer, hafter⟩ := hstep a s t h
    obtain ⟨hanswers, hlast⟩ := ih hafter
    refine ⟨?_, hlast⟩
    change (step a s).1 :: (runAll step as (step a s).2).1 =
      (step' a t).1 :: (runAll step' as (step' a t).2).1
    rw [hanswer, hanswers]

/-- Systems whose steps keep a relation are related after every run. -/
theorem runAll_related {R : σ → τ → Prop}
    (hstep : ∀ a s t, R s t → R (step a s).2 (step' a t).2) {s : σ} {t : τ} (h : R s t)
    (as : List α) : R (runAll step as s).2 (runAll step' as t).2 := by
  induction as generalizing s t with
  | nil => exact h
  | cons a as ih => exact ih (hstep a s t h)

/-- The steps of two lists are taken one list after the other. -/
theorem runAll_append (as bs : List α) (s : σ) :
    (runAll step (as ++ bs) s).2 = (runAll step bs (runAll step as s).2).2 := by
  induction as generalizing s with
  | nil => rfl
  | cons a as ih => exact ih (step a s).2

/-- The answers are given one list after the other, too. -/
theorem answers_append (as bs : List α) (s : σ) :
    (runAll step (as ++ bs) s).1 =
      (runAll step as s).1 ++ (runAll step bs (runAll step as s).2).1 := by
  induction as generalizing s with
  | nil => rfl
  | cons a as ih => exact congrArg ((step a s).1 :: ·) (ih (step a s).2)

/-- Steps that leave the state as it was can be left out: the others are answered as before, and
lead to the same state. -/
theorem runAll_filter {idle : β → Bool}
    (hidle : ∀ a s, idle (step a s).1 = true → (step a s).2 = s) (as : List α) (s : σ) :
    let run := runAll step as s
    let kept := (as.zip run.1).filter fun p => !idle p.2
    runAll step (kept.map Prod.fst) s = (kept.map Prod.snd, run.2) := by
  induction as generalizing s with
  | nil => rfl
  | cons a as ih =>
    have hrest := ih (step a s).2
    cases ha : idle (step a s).1 with
    | true =>
      rw [hidle a s ha] at hrest
      simp only [runAll, List.zip_cons_cons, List.filter_cons, ha, Bool.not_true,
        Bool.false_eq_true, if_false, hidle a s ha]
      exact hrest
    | false =>
      simp only [runAll, List.zip_cons_cons, List.filter_cons, ha, Bool.not_false, if_true,
        List.map_cons, hrest]

/-- A property holds before the first step of a run and after each step. -/
def Throughout (step : α → σ → β × σ) (P : σ → Prop) : List α → σ → Prop
  | [], s => P s
  | a :: as, s => P s ∧ Throughout step P as (step a s).2

namespace Throughout

variable {P Q : σ → Prop} {s : σ} {as : List α}

/-- It holds before the first step. -/
theorem first (h : Throughout step P as s) : P s := by
  cases as with
  | nil => exact h
  | cons a as => exact h.1

/-- It holds after the last step. -/
theorem last (h : Throughout step P as s) : P (runAll step as s).2 := by
  induction as generalizing s with
  | nil => exact h
  | cons a as ih => exact ih h.2

/-- It holds throughout the first steps. -/
theorem of_append {bs : List α} (h : Throughout step P (as ++ bs) s) : Throughout step P as s := by
  induction as generalizing s with
  | nil => exact h.first
  | cons a as ih => exact ⟨h.1, ih h.2⟩

/-- It holds throughout the last steps. -/
theorem after_append {bs : List α} (h : Throughout step P (as ++ bs) s) :
    Throughout step P bs (runAll step as s).2 := by
  induction as generalizing s with
  | nil => exact h
  | cons a as ih => exact ih h.2

/-- What every step keeps where the property holds, the run keeps. -/
theorem invariant (h : Throughout step P as s) (hstep : ∀ a s, P s → Q s → Q (step a s).2)
    (hQ : Q s) : Q (runAll step as s).2 := by
  induction as generalizing s with
  | nil => exact hQ
  | cons a as ih => exact ih h.2 (hstep a s h.1 hQ)

/-- It holds throughout a run of a system that keeps a relation, if the relation carries it over. -/
theorem transfer {R : σ → τ → Prop} {P' : τ → Prop} (h : Throughout step P as s)
    (hstep : ∀ a s t, R s t → R (step a s).2 (step' a t).2) (hP : ∀ s t, R s t → P s → P' t)
    {t : τ} (hR : R s t) : Throughout step' P' as t := by
  induction as generalizing s t with
  | nil => exact hP s t hR h
  | cons a as ih => exact ⟨hP s t hR h.1, ih h.2 (hstep a s t hR)⟩

end Throughout

end SourceFilter
