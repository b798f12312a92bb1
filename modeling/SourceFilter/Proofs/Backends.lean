import SourceFilter.Proofs.Kernel.Enforcement
import SourceFilter.Proofs.LongestMatch
import SourceFilter.Proofs.Session

/-!
# The filter tables and the kernel's maps agree

The filter tables and the kernel's maps refuse mutations for different reasons, but the same ones,
and what they enforce is read back alike. A pass only looks at whether its calls took effect, so
passes over either have the same reports, and the same is known to be live after them.
-/

namespace SourceFilter

/-- The same change was tried with the same success. If it was refused, the reasons may differ. -/
structure Call.Matches (call call' : Call) : Prop where
  /-- The same change was tried. -/
  change : call.change = call'.change
  /-- It took effect in both cases, or in none. -/
  succeeded : call.succeeded = call'.succeeded

namespace Delta

/-- Calls that match are counted alike. -/
theorem count_congr {call call' : Call} (h : call.Matches call') (delta : Delta) :
    delta.count call = delta.count call' := by
  rw [count, count, h.change, h.succeeded]

/-- So are lists of them. -/
theorem ofCalls_congr {calls calls' : List Call} (h : List.Forall₂ Call.Matches calls calls')
    (part : StorePart) : ofCalls part calls = ofCalls part calls' := by
  have hfold (delta : Delta) :
      (calls.filter fun call => call.change.part = part).foldl count delta =
        (calls'.filter fun call => call.change.part = part).foldl count delta := by
    induction h generalizing delta with
    | nil => rfl
    | @cons call call' calls calls' hcall hcalls ih =>
      rw [List.filter_cons, List.filter_cons, hcall.change]
      split
      next =>
        rw [List.foldl_cons, List.foldl_cons, count_congr hcall]
        exact ih _
      next => exact ih delta
  exact hfold {}

end Delta

/-- Whether the generation number was set does not depend on the reasons of refusals. -/
theorem Call.any_stamped_congr {calls calls' : List Call}
    (h : List.Forall₂ Call.Matches calls calls') :
    (calls.any fun call => call.change.part = .generation && call.succeeded) =
      calls'.any fun call => call.change.part = .generation && call.succeeded := by
  induction h with
  | nil => rfl
  | cons hcall hcalls ih => rw [List.any_cons, List.any_cons, hcall.change, hcall.succeeded, ih]

section Concur

variable {σ τ : Type} [Store σ] [Store τ] {R : σ → τ → Prop} {s : σ} {t : τ}

/-- Tries a mutation: whether it took effect, and the store afterwards. -/
def attempt (m : Mutation) (s : σ) : Bool × σ :=
  let (outcome, s) := Store.perform m s
  (outcome.isOk, s)

/-- The same mutations take effect in related stores, and these stay related. -/
def Concur (R : σ → τ → Prop) : Prop :=
  ∀ m s t, R s t → (attempt m s).1 = (attempt m t).1 ∧ R (attempt m s).2 (attempt m t).2

/-- Makes a pass with a configuration at a time of the clock. -/
def Service.adopt (pass : UInt64 × Config) (a : Service σ) :
    Except ConfigError Report × Service σ :=
  let p := reconcile pass.1 pass.2 a.book a.store
  (p.result, ⟨p.book, p.store⟩)

/-- The book hears only whether a change took effect. -/
theorem Book.hear_congr {outcome outcome' : Except StoreError Unit}
    (h : outcome.isOk = outcome'.isOk) (book : Book) (change : Change) :
    book.hear change outcome = book.hear change outcome' := by
  rw [hear, hear, h]

namespace Concur

/-- The same mutations of a list take effect. -/
theorem answers (h : Concur R) (hR : R s t) (mutations : List Mutation) :
    let run := runAll attempt mutations s
    let run' := runAll attempt mutations t
    run.1 = run'.1 ∧ R run.2 run'.2 :=
  runAll_simulation h hR mutations

/-- The changes of a plan have the same success, and the book learns the same. -/
theorem carryOut (h : Concur R) (hR : R s t) (changes : List Change) (book : Book) :
    let after := SourceFilter.carryOut changes book s
    let after' := SourceFilter.carryOut changes book t
    List.Forall₂ Call.Matches after.1 after'.1 ∧ after.2.1 = after'.2.1 ∧
      R after.2.2 after'.2.2 := by
  induction changes generalizing book s t with
  | nil => exact ⟨.nil, rfl, hR⟩
  | cons change changes ih =>
    obtain ⟨hsuccess, hafter⟩ := h change.mutation s t hR
    have hbook : book.hear change (Store.perform change.mutation s).1 =
        book.hear change (Store.perform change.mutation t).1 := Book.hear_congr hsuccess book change
    have hrest := ih hafter (book.hear change (Store.perform change.mutation s).1)
    obtain ⟨hcalls, hbooks, hlast⟩ := hrest
    rw [carryOut_cons, carryOut_cons]
    simp only [← hbook]
    exact ⟨.cons ⟨rfl, hsuccess⟩ hcalls, hbooks, hlast⟩

/-- A pass has the same result over related stores. -/
theorem reconcile (h : Concur R) (hR : R s t) (clock : UInt64) (config : Config) (book : Book) :
    let p := SourceFilter.reconcile clock config book s
    let q := SourceFilter.reconcile clock config book t
    p.result = q.result ∧ p.book = q.book ∧ R p.store q.store := by
  obtain ⟨hcalls, hbook, hlast⟩ := h.carryOut hR (book.plan clock config) book
  simp only [SourceFilter.reconcile]
  cases book.interfaceFor config with
  | error e => exact ⟨rfl, rfl, hR⟩
  | ok binding =>
    simp only [hbook, Delta.ofCalls_congr hcalls, Call.any_stamped_congr hcalls]
    exact ⟨trivial, trivial, hlast⟩

/-- So do all passes of a service, and the same is known after them. -/
theorem run (h : Concur R) (hR : R s t) (passes : List (UInt64 × Config)) :
    let run := runAll Service.adopt passes { store := s }
    let run' := runAll Service.adopt passes { store := t }
    run.1 = run'.1 ∧ run.2.book = run'.2.book := by
  have hstep (pass : UInt64 × Config) (a : Service σ) (b : Service τ) (hab : a.Related R b) :
      (Service.adopt pass a).1 = (Service.adopt pass b).1 ∧
        (Service.adopt pass a).2.Related R (Service.adopt pass b).2 := by
    obtain ⟨hresult, hbook, hstore⟩ := h.reconcile hab.store pass.1 pass.2 a.book
    rw [Service.adopt, Service.adopt, ← hab.book]
    exact ⟨hresult, hbook, hstore⟩
  have hstart : Service.Related R { store := s } { store := t } := ⟨rfl, hR⟩
  obtain ⟨hresults, hlast⟩ := runAll_simulation hstep hstart passes
  exact ⟨hresults, hlast.book⟩

end Concur

end Concur

namespace Tables

variable {capacity : Nat}

/-- The mutations that a ruleset does not refuse take effect in the tables that enforce it. -/
theorem concur : Concur fun (t : Tables capacity) (r : Ruleset capacity) => t.Enforces r := by
  intro m t r h
  cases hm : r.refusal? m with
  | none =>
    obtain ⟨t', hperform, h'⟩ := h.perform_of_refusal?_eq_none hm
    simp only [attempt, hperform, Ruleset.perform_of_refusal?_eq_none hm]
    exact ⟨trivial, h'⟩
  | some e =>
    have hperform := h.perform_of_refusal?_eq_some hm
    simp only [attempt, hperform, Ruleset.perform_of_refusal?_eq_some hm]
    exact ⟨trivial, h⟩

/-- The blocked prefixes are read back in ascending order. -/
theorem Blocks.ascending {t : Tables capacity} {blocked : Finset Prefix} (h : t.Blocks blocked) :
    t.blacklist.Pairwise fun p q => p.rank < q.rank := by
  have hsorted : t.blacklist.Pairwise fun p q => p.rank ≤ q.rank := Roster.pairwise_mergeSort _
  refine (hsorted.and h.nodup_blacklist).imp fun {p q} hpq => ?_
  exact Nat.lt_of_le_of_ne hpq.1 fun hrank => hpq.2 (Prefix.rank_injective hrank)

/-- The rules are read back in ascending order of their sources. -/
theorem Limits.ascending {t : Tables capacity} {rates : Finmap fun _ : Address => Rate}
    (h : t.Limits rates) : t.rateRules.Pairwise fun r s => r.rank < s.rank := by
  have hsorted : t.rateRules.Pairwise fun r s => r.rank ≤ s.rank := Roster.pairwise_mergeSort _
  have hnodup : t.rateRules.Nodup := (List.mergeSort_perm _ _).nodup_iff.2 h.nodup_rules
  refine (hsorted.and hnodup).imp_of_mem fun {r s} hr hs hrs => ?_
  refine Nat.lt_of_le_of_ne hrs.1 fun hrank => hrs.2 ?_
  exact RateRule.eq_of_lookup (h.mem_rateRules.1 hr) (h.mem_rateRules.1 hs) hrank

end Tables

namespace Kernel

variable {capacity : Nat} {k : Kernel}

/-- The mutations that a ruleset does not refuse take effect in the kernel that enforces it. -/
theorem concur : Concur fun (k : Kernel) (r : Ruleset capacity) => k.Enforces r := by
  intro m k r h
  cases hm : r.refusal? m with
  | none =>
    obtain ⟨k', hperform, h'⟩ := h.perform_of_refusal?_eq_none hm
    simp only [attempt, hperform, Ruleset.perform_of_refusal?_eq_none hm]
    exact ⟨trivial, h'⟩
  | some e =>
    obtain ⟨e', hperform⟩ := h.perform_of_refusal?_eq_some hm
    simp only [attempt, hperform, Ruleset.perform_of_refusal?_eq_some hm]
    exact ⟨rfl, h⟩

namespace Enforces

variable {r : Ruleset capacity} {t : Tables capacity}

/-- The kernel and the tables that enforce the same ruleset list the same prefixes. -/
theorem blacklist_eq_tables (hk : k.Enforces r) (ht : t.Enforces r) :
    k.blacklist = .ok t.blacklist := by
  refine hk.blacklist_eq ht.blocks.nodup_prefixes fun p => ?_
  rw [← ht.blocks.mem_blacklist, Tables.blacklist, List.mem_mergeSort]

/-- They list the same rules. -/
theorem rateRules_eq_tables (hk : k.Enforces r) (ht : t.Enforces r) :
    k.rateRules = .ok t.rateRules := by
  refine hk.rateRules_eq ht.limits.nodup_rules fun rule => ?_
  rw [← ht.limits.mem_rateRules, Tables.rateRules, List.mem_mergeSort]

end Enforces

/-- The kernel's maps and the filter tables agree. Over maps that hold nothing yet, with room for so
many entries and with their keys listed in whatever order, the same mutations take effect as over
empty tables with the same room, and after them both read back the same blocked prefixes, rate rules
and generation number, in ascending order and as the addresses that were meant. So the passes of a
service over either have the same reports, and the same is known to be live after them. -/
theorem maps_agree_with_tables (hfresh : k.Fresh capacity) :
    (∀ mutations : List Mutation,
      let maps := runAll attempt mutations k
      let tables := runAll attempt mutations (Tables.empty : Tables capacity)
      let rules := runAll attempt mutations ({} : Ruleset capacity)
      maps.1 = tables.1 ∧ tables.1 = rules.1 ∧
      maps.2.blacklist = .ok tables.2.blacklist ∧
      maps.2.rateRules = .ok tables.2.rateRules ∧
      Kernel.generation maps.2 = .ok tables.2.generation ∧
      tables.2.blacklist.Pairwise (fun p q => p.rank < q.rank) ∧
      tables.2.rateRules.Pairwise (fun r s => r.rank < s.rank) ∧
      (∀ p, p ∈ tables.2.blacklist ↔ p ∈ rules.2.blocked) ∧
      (∀ rule, rule ∈ tables.2.rateRules ↔
        rules.2.rates.lookup rule.source = some rule.rate) ∧
      tables.2.generation = rules.2.generation) ∧
    ∀ passes : List (UInt64 × Config),
      let maps := runAll Service.adopt passes { store := k }
      let tables := runAll Service.adopt passes { store := (Tables.empty : Tables capacity) }
      maps.1 = tables.1 ∧ maps.2.book = tables.2.book := by
  constructor
  · -- both stores are compared with the ruleset
    intro mutations maps tables rules
    obtain ⟨hmaps, hk⟩ := concur.answers hfresh.enforces mutations
    obtain ⟨htables, ht⟩ := Tables.concur.answers Tables.Enforces.empty mutations
    refine ⟨hmaps.trans htables.symm, htables, hk.blacklist_eq_tables ht, hk.rateRules_eq_tables ht,
      ?_, ht.blocks.ascending, ht.limits.ascending, fun p => ht.blocks.mem_blacklist,
      fun rule => ht.limits.mem_rateRules, ht.generation⟩
    rw [ht.generation]
    exact hk.generation_eq
  · intro passes maps tables
    obtain ⟨hmaps, hbook⟩ := concur.run hfresh.enforces passes
    obtain ⟨htables, hbook'⟩ := Tables.concur.run Tables.Enforces.empty passes
    exact ⟨hmaps.trans htables.symm, hbook.trans hbook'.symm⟩

/-- With room for one prefix, maps whose keys are listed backwards refuse another prefix as the
tables do, but not the same one again; a prefix that is not blocked can be unblocked. -/
theorem full_maps_agree_with_tables :
    let k : Kernel :=
      { maps := MapName.all.map fun name => (name, .create (name.shape 1))
        listing := ⟨List.reverse, List.reverse_perm⟩ }
    let p := Prefix.around (Address.ofOctets 10 0 0 0) 8
    let q := Prefix.host (Address.ofOctets 192 0 2 1)
    let mutations := [.block p, .block q, .block p, .unblock q, .stamp 7]
    let maps := runAll attempt mutations k
    k.Fresh 1 ∧ maps.1 = [true, false, true, true, true] ∧ maps.2.blacklist = .ok [p] ∧
      Kernel.generation maps.2 = .ok 7 := by
  intro k p q mutations maps
  let tables := runAll attempt mutations (Tables.empty : Tables 1)
  have hfresh : k.Fresh 1 := ⟨rfl, rfl, rfl, rfl⟩
  obtain ⟨hsame, -, hblacklist, -, hgeneration, -⟩ :=
    (maps_agree_with_tables hfresh).1 mutations
  have hanswers : tables.1 = [true, false, true, true, true] := by decide +kernel
  have hlisted : tables.2.blacklist.Perm [p] := by
    refine (List.mergeSort_perm _ _).trans (List.Perm.of_eq ?_)
    decide +kernel
  have hstamped : tables.2.generation = 7 := by decide +kernel
  exact ⟨hfresh, hsame.trans hanswers,
    hblacklist.trans (congrArg _ (List.perm_singleton.1 hlisted)),
    hgeneration.trans (congrArg _ hstamped)⟩

end Kernel

end SourceFilter
