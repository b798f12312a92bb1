import SourceFilter.Proofs.Effects

/-!
# Passes with the same configuration

The book learns only of changes that took effect, so what was refused in a pass is what the book
still lacks. The next pass with the same configuration tries exactly this again, and nothing when
nothing was refused, whatever the stores are and whichever calls they refuse.
-/

namespace SourceFilter

/-- What is planned after a pass is what was refused in it, and then a new generation number. -/
theorem Pass.Tells.plan_eq {σ : Type} {p : Pass σ} {book : Book} {clock : UInt64} {config : Config}
    {report : Report} (h : p.Tells book clock config report) (clock' : UInt64) :
    p.book.plan clock' config =
      Call.refused (p.calls.filter fun call => call.change.part ≠ .generation) ++
        [.stamp (nextGeneration clock' p.book.generation)] := by
  obtain ⟨xs, ys, zs, hparts, hled⟩ := h.exists_ledTo
  have htables : (p.calls.filter fun call => call.change.part ≠ .generation) = xs ++ ys := by
    rw [hparts.filter_eq fun part => part ≠ .generation]
    exact List.append_nil _
  rw [Book.plan_eq, htables, Call.refused_append, hled.blacklistRefused, hled.rateRulesRefused]

/-- Nothing is refused when all calls took effect. -/
theorem Call.refused_eq_nil {calls : List Call} (h : ∀ call ∈ calls, call.succeeded) :
    refused calls = [] := by
  rw [refused, List.map_eq_nil_iff, List.filter_eq_nil_iff]
  intro call hcall
  rw [h call hcall]
  exact Bool.false_ne_true

/-- Calls about another part are not counted. -/
theorem Delta.ofCalls_eq_empty {part : StorePart} {calls : List Call}
    (h : ∀ call ∈ calls, call.change.part ≠ part) : ofCalls part calls = {} := by
  have hnone : (calls.filter fun call => call.change.part = part) = [] := by
    rw [List.filter_eq_nil_iff]
    intro call hcall hpart
    exact h call hcall (of_decide_eq_true hpart)
  rw [ofCalls, hnone]
  rfl

/-- A report without changes says that nothing changed. -/
theorem Report.changed_eq_false {report : Report} {config : Config}
    (hblacklist : report.blacklist = config.blacklist.map fun _ => {})
    (hrateRules : report.rateRules = config.rateRules.map fun _ => {}) :
    report.changed = false := by
  have hunchanged : Delta.changed {} = false := rfl
  rw [changed, hblacklist, hrateRules]
  cases config.blacklist <;> cases config.rateRules <;>
    simp only [Option.map_none, Option.map_some, Option.any_none, Option.any_some, hunchanged,
      Bool.or_self]

/-- What fails is tried again, and nothing else. Let a configuration name an interface, and let no
other one be bound. Of two passes with it in a row, each over any store, neither is turned down, and
the second one tries the changes of the blacklist and the rules that were refused in the first one,
the same ones in the same order, and then sets the generation number. When nothing was refused, the
second pass makes no change of the tables, and its report counts none. Both passes warn alike. -/
theorem second_pass_retries {σ τ : Type} [Store σ] [Store τ] {book : Book} {config : Config}
    {interface : String} (hconfig : config.interface = some interface)
    (hbound : book.interface = none ∨ book.interface = some interface) (clock clock' : UInt64)
    (s : σ) (t : τ) :
    let first := reconcile clock config book s
    let second := reconcile clock' config first.book t
    ∃ report report', first.result = .ok report ∧ second.result = .ok report' ∧
      second.calls.map Call.change =
        Call.refused (first.calls.filter fun call => call.change.part ≠ .generation) ++
          [.stamp (nextGeneration clock' first.book.generation)] ∧
      ((∀ call ∈ first.calls, call.change.part ≠ .generation → call.succeeded) →
        (∀ call ∈ second.calls, call.change.part = .generation) ∧
          report'.blacklist = config.blacklist.map (fun _ => {}) ∧
          report'.rateRules = config.rateRules.map (fun _ => {}) ∧ report'.changed = false) ∧
      report'.warnings = report.warnings := by
  intro first second
  obtain ⟨_, hinterface⟩ := Book.interfaceFor_of_bound hconfig hbound
  obtain ⟨report, hok⟩ := exists_report hinterface clock s
  have htells : first.Tells book clock config report := tells_reconcile hok
  have hbound' : first.book.interface = some interface :=
    htells.bound.trans (htells.interface.symm.trans hconfig)
  obtain ⟨_, hinterface'⟩ := Book.interfaceFor_of_bound hconfig (.inr hbound')
  obtain ⟨report', hok'⟩ := exists_report hinterface' clock' t
  have htells' : second.Tells first.book clock' config report' := tells_reconcile hok'
  have hcalls : second.calls.map Call.change =
      Call.refused (first.calls.filter fun call => call.change.part ≠ .generation) ++
        [.stamp (nextGeneration clock' first.book.generation)] :=
    htells'.calls.trans (htells.plan_eq clock')
  refine ⟨report, report', hok, hok', hcalls, fun hall => ?_,
    htells'.warnings.trans htells.warnings.symm⟩
  have hnone :
      Call.refused (first.calls.filter fun call => call.change.part ≠ .generation) = [] := by
    apply Call.refused_eq_nil
    intro call hcall
    obtain ⟨hmem, hpart⟩ := List.mem_filter.1 hcall
    exact hall call hmem (of_decide_eq_true hpart)
  have hstamps : ∀ call ∈ second.calls, call.change.part = .generation := by
    intro call hcall
    have hmem : call.change ∈ second.calls.map Call.change := List.mem_map_of_mem hcall
    rw [hcalls, hnone, List.nil_append, List.mem_singleton] at hmem
    rw [hmem]
    rfl
  have hempty {part : StorePart} (hpart : StorePart.generation ≠ part) :
      Delta.ofCalls part second.calls = {} := by
    apply Delta.ofCalls_eq_empty
    intro call hcall
    rwa [hstamps call hcall]
  have hblacklist : report'.blacklist = config.blacklist.map fun _ => {} := by
    rw [htells'.blacklistDelta, hempty (by decide)]
  have hrateRules : report'.rateRules = config.rateRules.map fun _ => {} := by
    rw [htells'.rateRulesDelta, hempty (by decide)]
  exact ⟨hstamps, hblacklist, hrateRules, Report.changed_eq_false hblacklist hrateRules⟩

/-- A prefix for which a table has no room is tried again, and a rule whose call got lost. Without
either of them the second pass has nothing to do. -/
theorem second_pass_retries_after_refusal :
    let t : Tables 1 := .empty
    let f : Faulty (Tables 1) :=
      { store := t, faults := fun n _ => if n = 2 then some (.failed .rateRules "busy") else none }
    let config := Config.parse "interface=e\nip_blacklist=1.1.1.1,2.2.2.2\nip_rate_limits=3.3.3.3:5"
    let config' := Config.parse "interface=e\nip_blacklist=1.1.1.1"
    let first := reconcile 1 config {} f
    let second := reconcile 2 config first.book first.store
    let first' := reconcile 1 config' {} t
    let second' := reconcile 2 config' first'.book first'.store
    config.interface = some "e" ∧
      Call.refused (first.calls.filter fun call => call.change.part ≠ .generation) =
        [.block (Prefix.host (Address.ofOctets 2 2 2 2)),
          .limit ⟨Address.ofOctets 3 3 3 3, ⟨5, by decide⟩⟩] ∧
      second.calls.map Call.change = [.block (Prefix.host (Address.ofOctets 2 2 2 2)),
        .limit ⟨Address.ofOctets 3 3 3 3, ⟨5, by decide⟩⟩, .stamp 2] ∧
      config'.interface = some "e" ∧
      (∀ call ∈ first'.calls, call.change.part ≠ .generation → call.succeeded) ∧
      ∀ call ∈ second'.calls, call.change.part = .generation := by
  intro t f config config' first second first' second'
  have hconfig : config.interface = some "e" := by
    unfold config
    rfl
  have hconfig' : config'.interface = some "e" := by
    unfold config'
    rfl
  have hrefused : Call.refused (first.calls.filter fun call => call.change.part ≠ .generation) =
      [.block (Prefix.host (Address.ofOctets 2 2 2 2)),
        .limit ⟨Address.ofOctets 3 3 3 3, ⟨5, by decide⟩⟩] := by
    unfold first f config t
    rfl
  have hgeneration : nextGeneration 2 first.book.generation = 2 := by
    unfold first f config t
    rfl
  have hall : ∀ call ∈ first'.calls, call.change.part ≠ .generation → call.succeeded := by
    unfold first' config' t
    decide
  have hbound : ({} : Book).interface = none ∨ ({} : Book).interface = some "e" := .inl rfl
  obtain ⟨_, _, -, -, hcalls, -⟩ := second_pass_retries hconfig hbound 1 2 f first.store
  obtain ⟨_, _, -, -, -, hnothing, -⟩ := second_pass_retries hconfig' hbound 1 2 t first'.store
  rw [hrefused, hgeneration] at hcalls
  exact ⟨hconfig, hrefused, hcalls, hconfig', hall, (hnothing hall).1⟩

end SourceFilter
