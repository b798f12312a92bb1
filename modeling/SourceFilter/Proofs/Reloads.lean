import SourceFilter.Daemon.Service
import SourceFilter.Tables
import SourceFilter.Proofs.Run
import Mathlib.Data.List.Basic

/-!
# Overlapping reloads

A reload first reads the whole file, and later, when no other pass is going on, makes its pass with
the text. Between the two the file may change and other reloads may read it, and they get their
turns in any order. So passes never overlap and each one uses a text that the file had, but a reload
that waits is overtaken by one that read a newer content: the older content then comes back, and if
no reload follows, it stays. The passes are made in the order of the contents exactly when no reload
is overtaken like this.
-/

namespace SourceFilter

/-- What a reload has read. -/
structure Reading where
  /-- How often the file had changed before. -/
  version : Nat
  /-- The text. -/
  raw : String

/-- The turn of a reload: it makes its pass. -/
structure Turn where
  /-- What the reload has read. -/
  reading : Reading
  /-- The time of the clock. -/
  clock : UInt64

/-- The configuration file, the reloads that are under way, and the service. -/
structure Reloads (σ : Type) where
  /-- What reading the file gave before it changed, the oldest first. -/
  past : List (Except Errno ByteArray) := []
  /-- What reading the file gives. -/
  content : Except Errno ByteArray
  /-- The readings of the reloads that wait for their turn, the oldest first. -/
  waiting : List Reading := []
  /-- The service. -/
  service : Service σ

/-- A reading is of one of the contents. -/
def Reading.Of (path : String) (contents : List (Except Errno ByteArray)) (r : Reading) : Prop :=
  ∃ content, contents[r.version]? = some content ∧ configText path content = .ok r.raw

/-- There is a content of each version. -/
theorem Reading.Of.version_lt {path : String} {contents : List (Except Errno ByteArray)}
    {r : Reading} (h : r.Of path contents) : r.version < contents.length := by
  obtain ⟨content, hcontent, -⟩ := h
  exact (List.getElem?_eq_some_iff.1 hcontent).1

/-- A reading stays one when the file changes. -/
theorem Reading.Of.mono {path : String} {contents contents' : List (Except Errno ByteArray)}
    {r : Reading} (h : r.Of path contents) (hlonger : contents <+: contents') :
    r.Of path contents' := by
  have hlt := h.version_lt
  obtain ⟨content, hcontent, htext⟩ := h
  obtain ⟨rest, rfl⟩ := hlonger
  refine ⟨content, ?_, htext⟩
  rw [List.getElem?_append_left hlt, hcontent]

/-- The passes use contents in the order in which the file had them. -/
def InOrder (turns : List Turn) : Prop :=
  turns.Pairwise fun t t' => t.reading.version ≤ t'.reading.version

namespace Reloads

variable {σ : Type}

/-- What happens between two moments. -/
inductive Step where
  /-- The file changes; from now on reading it gives this. -/
  | write (content : Except Errno ByteArray)
  /-- A reload reads the file. If that fails, the reload is over. -/
  | read
  /-- A waiting reload gets its turn. -/
  | turn (n : Nat) (clock : UInt64)

/-- All that reading the file has given, the oldest first. -/
def contents (s : Reloads σ) : List (Except Errno ByteArray) := s.past ++ [s.content]

/-- The last of them is the present one. -/
theorem getElem?_contents (s : Reloads σ) : s.contents[s.past.length]? = some s.content := by
  rw [contents, List.getElem?_concat_length]

/-- A step: the turn that was taken, if any, and the state afterwards. -/
def step [Store σ] (path : String) : Step → Reloads σ → Option Turn × Reloads σ
  | .write content, s => (none, { s with past := s.past ++ [s.content], content := content })
  | .read, s =>
    match configText path s.content with
    | .error _ => (none, s)
    | .ok raw => (none, { s with waiting := s.waiting ++ [⟨s.past.length, raw⟩] })
  | .turn n clock, s =>
    match s.waiting[n]? with
    | none => (none, s)
    | some r =>
      (some ⟨r, clock⟩, { s with
        waiting := s.waiting.eraseIdx n
        service := (s.service.apply clock r.raw).service })

/-- The turns that are taken in a run. -/
def turns [Store σ] (path : String) (steps : List Step) (s : Reloads σ) : List Turn :=
  (runAll (step path) steps s).1.filterMap id

/-- The reload that gets its turn overtakes one that read an older content. -/
def Overtakes : Step → Reloads σ → Prop
  | .turn n _, s => ∃ r ∈ s.waiting[n]?, ∃ older ∈ s.waiting, older.version < r.version
  | _, _ => False

instance Overtakes.decidable (a : Step) (s : Reloads σ) : Decidable (Overtakes a s) :=
  match a with
  | .write _ => inferInstanceAs (Decidable False)
  | .read => inferInstanceAs (Decidable False)
  | .turn n _ => inferInstanceAs
      (Decidable (∃ r ∈ s.waiting[n]?, ∃ older ∈ s.waiting, older.version < r.version))

/-- No reload overtakes one that read an older content. -/
def Orderly [Store σ] (path : String) : List Step → Reloads σ → Prop
  | [], _ => True
  | a :: as, s => ¬Overtakes a s ∧ Orderly path as (step path a s).2

instance Orderly.decidable [Store σ] (path : String) : ∀ (as : List Step) (s : Reloads σ),
    Decidable (Orderly path as s)
  | [], _ => inferInstanceAs (Decidable True)
  | a :: as, s =>
    have : Decidable (Orderly path as (step path a s).2) := decidable path as _
    inferInstanceAs (Decidable (¬Overtakes a s ∧ Orderly path as (step path a s).2))

/-- The waiting readings are of contents that the file had. -/
def Genuine (path : String) (s : Reloads σ) : Prop := ∀ r ∈ s.waiting, r.Of path s.contents

variable {path : String} {s : Reloads σ}

/-- What one step can do. -/
structure Advance (path : String) (s : Reloads σ) (t : Option Turn) (s' : Reloads σ) : Prop where
  /-- What the file held is not forgotten. -/
  contents : s.contents <+: s'.contents
  /-- A reading that waits did so before, or is of the present content. -/
  arrived : ∀ r ∈ s'.waiting, r ∈ s.waiting ∨ r.version = s.past.length ∧ r.Of path s.contents
  /-- A turn is that of a reload that waited, and then nothing else happens. -/
  taken : ∀ turn, t = some turn →
    turn.reading ∈ s.waiting ∧ s'.past.length = s.past.length ∧ s'.waiting ⊆ s.waiting
  /-- A reload waits until it gets its turn. -/
  left : ∀ r ∈ s.waiting, r ∈ s'.waiting ∨ ∃ turn, t = some turn ∧ turn.reading = r

/-- Nothing happens. -/
theorem Advance.idle (s : Reloads σ) : Advance path s none s where
  contents := List.prefix_rfl
  arrived := fun _ hr => .inl hr
  taken := fun _ ht => by cases ht
  left := fun _ hr => .inl hr

namespace Advance

variable {t : Option Turn} {s' : Reloads σ}

/-- The file changes forwards. -/
theorem past_le (h : Advance path s t s') : s.past.length ≤ s'.past.length := by
  have hlength := h.contents.length_le
  simp only [Reloads.contents, List.length_append, List.length_singleton] at hlength
  omega

/-- The waiting readings remain of contents that the file had. -/
theorem genuine (h : Advance path s t s') (hs : s.Genuine path) : s'.Genuine path := by
  intro r hr
  rcases h.arrived r hr with hr | ⟨-, hof⟩
  · exact (hs r hr).mono h.contents
  · exact hof.mono h.contents

end Advance

/-- A reading is not of a later content than the present. -/
theorem version_le_of_of {r : Reading} (h : r.Of path s.contents) : r.version ≤ s.past.length := by
  have hlt := h.version_lt
  simp only [contents, List.length_append, List.length_singleton] at hlt
  omega

/-- When the passes are in order and one of them uses the present content, the last one does. -/
theorem last_uses_present {turns : List Turn} (hof : ∀ t ∈ turns, t.reading.Of path s.contents)
    (horder : InOrder turns) (hpresent : ∃ t ∈ turns, t.reading.version = s.past.length) :
    ∃ earlier last, turns = earlier ++ [last] ∧
      configText path s.content = .ok last.reading.raw := by
  obtain ⟨t, ht, hversion⟩ := hpresent
  obtain rfl | ⟨earlier, last, rfl⟩ := List.eq_nil_or_concat turns
  · cases ht
  · rw [List.concat_eq_append] at hof horder ht ⊢
    have hlast : last.reading.Of path s.contents :=
      hof last (List.mem_append_right _ (List.mem_singleton_self last))
    have hle : t.reading.version ≤ last.reading.version := by
      rcases List.mem_append.1 ht with hearlier | hsame
      · exact (List.pairwise_append.1 horder).2.2 t hearlier last (List.mem_singleton_self last)
      · have he : t = last := List.mem_singleton.1 hsame
        exact Nat.le_of_eq (congrArg (fun t => t.reading.version) he)
    have hbound := version_le_of_of hlast
    have hlatest : last.reading.version = s.past.length := by
      omega
    obtain ⟨content, hcontent, htext⟩ := hlast
    rw [hlatest, getElem?_contents] at hcontent
    cases hcontent
    exact ⟨earlier, last, rfl, htext⟩

variable [Store σ]

/-- A reload that reads and gets its turn at once, when no other waits, is a reload of the service.
-/
theorem turn_read (hwaiting : s.waiting = []) (clock : UInt64) :
    (step path (.turn 0 clock) (step path .read s).2).2 =
      { s with service := (s.service.reload clock path s.content).service } := by
  obtain ⟨past, content, waiting, service⟩ := s
  simp only at hwaiting
  subst hwaiting
  simp only [step, Service.reload]
  cases configText path content with
  | error failure => rfl
  | ok raw => rfl

/-- The turn of the first step comes before those of the others. -/
theorem turns_cons (a : Step) (as : List Step) (s : Reloads σ) :
    turns path (a :: as) s = (step path a s).1.toList ++ turns path as (step path a s).2 := by
  have hrun : (runAll (step path) (a :: as) s).1 =
      (step path a s).1 :: (runAll (step path) as (step path a s).2).1 := rfl
  rw [turns, hrun, List.filterMap_cons]
  cases (step path a s).1 with
  | none => rfl
  | some t => rfl

/-- The service has made the passes of the turns, one after the other. -/
theorem service_run (steps : List Step) (s : Reloads σ) :
    (runAll (step path) steps s).2.service =
      (turns path steps s).foldl (fun a t => (a.apply t.clock t.reading.raw).service)
        s.service := by
  induction steps generalizing s with
  | nil => rfl
  | cons a as ih =>
    have hstep : (step path a s).2.service = (step path a s).1.toList.foldl
        (fun a t => (a.apply t.clock t.reading.raw).service) s.service := by
      cases a with
      | write content => rfl
      | read =>
        rw [step]
        cases configText path s.content with
        | error failure => rfl
        | ok raw => rfl
      | turn n clock =>
        rw [step]
        cases s.waiting[n]? with
        | none => rfl
        | some r => rfl
    rw [turns_cons, List.foldl_append, ← hstep]
    exact ih (step path a s).2

/-- What a step does. -/
theorem advance_step (path : String) (a : Step) (s : Reloads σ) :
    Advance path s (step path a s).1 (step path a s).2 := by
  cases a with
  | write content =>
    rw [step]
    exact ⟨⟨[content], rfl⟩, fun _ hr => .inl hr, fun _ ht => by (cases ht), fun _ hr => .inl hr⟩
  | read =>
    rw [step]
    cases htext : configText path s.content with
    | error failure => exact .idle s
    | ok raw =>
      refine ⟨List.prefix_rfl, fun r hr => ?_, fun _ ht => by (cases ht), fun r hr => ?_⟩
      · rcases List.mem_append.1 hr with hr | hr
        · exact .inl hr
        · rw [List.mem_singleton.1 hr]
          exact .inr ⟨rfl, s.content, s.getElem?_contents, htext⟩
      · exact .inl (List.mem_append_left _ hr)
  | turn n clock =>
    rw [step]
    cases hn : s.waiting[n]? with
    | none => exact .idle s
    | some r =>
      refine ⟨List.prefix_rfl, fun r' hr' => .inl (List.mem_of_mem_eraseIdx hr'),
        fun turn ht => ?_, fun r' hr' => ?_⟩
      · cases ht
        exact ⟨List.mem_of_getElem? hn, rfl, fun r' hr' => List.mem_of_mem_eraseIdx hr'⟩
      · obtain ⟨i, hi⟩ := List.mem_iff_getElem?.1 hr'
        by_cases he : i = n
        · rw [he, hn] at hi
          exact .inr ⟨_, rfl, Option.some.inj hi⟩
        · exact .inl (List.mem_eraseIdx_iff_getElem?.2 ⟨i, he, hi⟩)

/-- What the file held is not forgotten in a run. -/
theorem contents_run (steps : List Step) (s : Reloads σ) :
    s.contents <+: (runAll (step path) steps s).2.contents := by
  induction steps generalizing s with
  | nil => exact List.prefix_rfl
  | cons a as ih => exact (advance_step path a s).contents.trans (ih (step path a s).2)

/-- Every turn uses a text that the file had. -/
theorem Genuine.turns (hs : s.Genuine path) (steps : List Step) {t : Turn}
    (ht : t ∈ turns path steps s) : t.reading.Of path (runAll (step path) steps s).2.contents := by
  induction steps generalizing s with
  | nil => cases ht
  | cons a as ih =>
    have hstep := advance_step path a s
    rw [turns_cons, List.mem_append, Option.mem_toList] at ht
    rcases ht with ht | ht
    · exact (hs _ (hstep.taken t ht).1).mono (contents_run (a :: as) s)
    · exact ih (hstep.genuine hs) ht

/-- A turn in a run is that of a reload that waits, or that reads the present or a later content. -/
theorem mem_waiting_of_mem_turns (steps : List Step) {t : Turn} (ht : t ∈ turns path steps s) :
    t.reading ∈ s.waiting ∨ s.past.length ≤ t.reading.version := by
  induction steps generalizing s with
  | nil => cases ht
  | cons a as ih =>
    have hstep := advance_step path a s
    have hpast := hstep.past_le
    rw [turns_cons, List.mem_append, Option.mem_toList] at ht
    rcases ht with ht | ht
    · exact .inl (hstep.taken t ht).1
    · rcases ih ht with hwaiting | hlater
      · rcases hstep.arrived _ hwaiting with hr | ⟨hr, -⟩
        · exact .inl hr
        · exact .inr (Nat.le_of_eq hr.symm)
      · exact .inr (Nat.le_trans hpast hlater)

/-- A reload that waits gets its turn in a run, or still waits afterwards. -/
theorem mem_turns_of_mem_waiting (steps : List Step) {r : Reading} (hr : r ∈ s.waiting) :
    r ∈ (runAll (step path) steps s).2.waiting ∨ ∃ t ∈ turns path steps s, t.reading = r := by
  induction steps generalizing s with
  | nil => exact .inl hr
  | cons a as ih =>
    rw [turns_cons]
    rcases (advance_step path a s).left r hr with hr | ⟨t, ht, he⟩
    · rcases ih hr with hlast | ⟨t, ht, he⟩
      · exact .inl hlast
      · exact .inr ⟨t, List.mem_append_right _ ht, he⟩
    · exact .inr ⟨t, List.mem_append_left _ (Option.mem_toList.2 ht), he⟩

/-- A turn is in order with those that follow when the reload overtakes no older one. -/
theorem version_le_of_not_overtakes (hs : s.Genuine path) {a : Step} {as : List Step} {t t' : Turn}
    (hfirst : (step path a s).1 = some t) (hnot : ¬Overtakes a s)
    (hlater : t' ∈ turns path as (step path a s).2) : t.reading.version ≤ t'.reading.version := by
  obtain ⟨hwaited, hpast, hwaiting⟩ := (advance_step path a s).taken t hfirst
  rcases mem_waiting_of_mem_turns as hlater with hr | hr
  · by_contra hless
    cases a with
    | write content => cases hfirst
    | read =>
      rw [step] at hfirst
      cases htext : configText path s.content with
      | error failure => simp [htext] at hfirst
      | ok raw => simp [htext] at hfirst
    | turn n clock =>
      cases hn : s.waiting[n]? with
      | none => simp [step, hn] at hfirst
      | some r =>
        simp only [step, hn, Option.some.injEq] at hfirst
        subst hfirst
        exact hnot ⟨r, hn, t'.reading, hwaiting hr, Nat.lt_of_not_le hless⟩
  · have hbound := version_le_of_of (hs _ hwaited)
    omega

/-- As long as no reload is overtaken, the passes are in order. -/
theorem Orderly.inOrder {steps : List Step} (h : Orderly path steps s) (hs : s.Genuine path) :
    InOrder (turns path steps s) := by
  induction steps generalizing s with
  | nil => exact List.Pairwise.nil
  | cons a as ih =>
    have hrest := ih h.2 ((advance_step path a s).genuine hs)
    rw [turns_cons]
    cases hfirst : (step path a s).1 with
    | none => exact hrest
    | some t =>
      exact List.pairwise_cons.2
        ⟨fun t' hlater => version_le_of_not_overtakes hs hfirst h.1 hlater, hrest⟩

/-- If all reloads are over and the passes are in order, no reload was overtaken. -/
theorem orderly_of_inOrder {steps : List Step}
    (hlast : (runAll (step path) steps s).2.waiting = []) (h : InOrder (turns path steps s)) :
    Orderly path steps s := by
  induction steps generalizing s with
  | nil => exact trivial
  | cons a as ih =>
    rw [turns_cons] at h
    refine ⟨fun hovertakes => ?_, ih hlast (List.pairwise_append.1 h).2.1⟩
    cases a with
    | write content => exact hovertakes
    | read => exact hovertakes
    | turn n clock =>
      obtain ⟨r, hn, older, holder, hless⟩ := hovertakes
      have hfirst : (step path (.turn n clock) s).1 = some ⟨r, clock⟩ := by
        simp only [step, Option.mem_def.1 hn]
      rcases (advance_step path (.turn n clock) s).left older holder with
        hwaits | ⟨t, ht, he⟩
      · rcases mem_turns_of_mem_waiting as hwaits with hleft | ⟨t, ht, he⟩
        · have hleft' : older ∈ (runAll (step path) (.turn n clock :: as) s).2.waiting := hleft
          rw [hlast] at hleft'
          cases hleft'
        · rw [hfirst] at h
          have hle := (List.pairwise_cons.1 h).1 t ht
          rw [he] at hle
          exact absurd hless (Nat.not_lt.2 hle)
      · rw [hfirst] at ht
        cases ht
        rw [← he] at hless
        exact Nat.lt_irrefl _ hless

/-- Passes do not overlap, and each uses a text that the file had. As long as no reload overtakes
one that read an older content, they use the contents in their order; and if all reloads are over,
only then. So if none was overtaken and one read the file after its last change, the pass that was
made last used the present content. -/
theorem passes_in_order_iff_orderly (path : String) (content : Except Errno ByteArray)
    (service : Service σ) (steps : List Step) :
    let start : Reloads σ := { content := content, service := service }
    let final := (runAll (step path) steps start).2
    let turns := turns path steps start
    final.service = turns.foldl (fun a t => (a.apply t.clock t.reading.raw).service) service ∧
      (∀ t ∈ turns, t.reading.Of path final.contents) ∧
      (Orderly path steps start → InOrder turns) ∧
      (final.waiting = [] → InOrder turns → Orderly path steps start) ∧
      (Orderly path steps start → (∃ t ∈ turns, t.reading.version = final.past.length) →
        ∃ earlier last, turns = earlier ++ [last] ∧
          configText path final.content = .ok last.reading.raw) := by
  intro start final turns
  have hstart : start.Genuine path := fun r hr => by cases hr
  have hof (t : Turn) (ht : t ∈ turns) : t.reading.Of path final.contents := hstart.turns steps ht
  refine ⟨service_run steps start, hof, fun h => h.inOrder hstart,
    fun hlast h => orderly_of_inOrder hlast h, fun h hpresent => ?_⟩
  exact last_uses_present hof (h.inOrder hstart) hpresent

/-- Two reloads that get their turns in the order in which they read leave the present content in
force. -/
theorem present_content_after_two_reloads :
    let older : Except Errno ByteArray := .ok "interface=e\nip_blacklist=1.1.1.1".toUTF8
    let newer : Except Errno ByteArray := .ok "interface=e\nip_blacklist=2.2.2.2".toUTF8
    let steps : List Step := [.read, .write newer, .read, .turn 0 1, .turn 0 2]
    let start : Reloads (Tables 1) := { content := older, service := { store := Tables.empty } }
    let turns := turns "c" steps start
    Orderly "c" steps start ∧
      (∃ t ∈ turns, t.reading.version = (runAll (step "c") steps start).2.past.length) ∧
      ∃ earlier last, turns = earlier ++ [last] ∧ configText "c" newer = .ok last.reading.raw := by
  intro older newer steps start turns
  have horderly : Orderly "c" steps start := by
    unfold start steps newer older
    decide +kernel
  have hpresent : ∃ t ∈ turns,
      t.reading.version = (runAll (step "c") steps start).2.past.length := by
    unfold turns start steps newer older
    decide +kernel
  obtain ⟨-, -, -, -, hlast⟩ := passes_in_order_iff_orderly "c" older start.service steps
  exact ⟨horderly, hpresent, hlast horderly hpresent⟩

/-- A reload that waits while the file changes and another one reads it and makes its pass brings
the older content back, which stays when all reloads are over. -/
theorem older_content_after_overtaking :
    let older : Except Errno ByteArray := .ok "interface=e\nip_blacklist=1.1.1.1".toUTF8
    let newer : Except Errno ByteArray := .ok "interface=e\nip_blacklist=2.2.2.2".toUTF8
    let steps : List Step := [.read, .write newer, .read, .turn 1 1, .turn 0 2]
    let start : Reloads (Tables 1) := { content := older, service := { store := Tables.empty } }
    let final := (runAll (step "c") steps start).2
    let turns := turns "c" steps start
    turns.map (fun t => t.reading.version) = [1, 0] ∧ ¬InOrder turns ∧
      final.waiting = [] ∧ final.past.length = 1 ∧ final.content = newer ∧
      Prefix.host (Address.ofOctets 1 1 1 1) ∈ final.service.store.blacklist ∧
      Prefix.host (Address.ofOctets 2 2 2 2) ∉ final.service.store.blacklist := by
  intro older newer steps start final turns
  have hversions : turns.map (fun t => t.reading.version) = [1, 0] := by
    unfold turns start steps newer older
    rfl
  refine ⟨hversions, fun horder => ?_, ?_, ?_, ?_, ?_, ?_⟩
  · have hsorted := List.pairwise_map.2 horder
    rw [hversions] at hsorted
    exact absurd hsorted (by decide)
  · unfold final start steps newer older
    rfl
  · unfold final start steps newer older
    rfl
  · unfold final start steps newer older
    rfl
  · unfold final start steps newer older
    exact List.mem_mergeSort.2 (by decide +kernel)
  · unfold final start steps newer older
    exact fun hmem => absurd (List.mem_mergeSort.1 hmem) (by decide +kernel)

end Reloads

end SourceFilter
