import SourceFilter.Proofs.Midway
import Mathlib.Data.Set.Card
import Mathlib.Order.SymmDiff

/-!
# What a report says about the tables

A report counts the calls of a pass. The effective calls are what leads from the old tables to the
new ones, and the refused calls are what is still missing, so the numbers of the report are the
sizes of the differences between the tables before the pass, the tables after it and the
configuration.
-/

namespace SourceFilter

/-- A set whose members are numbered by the numbers of a list without repetition has as many members
as the list. -/
theorem ncard_eq_length {β : Type} {f : β → Nat} (hf : Function.Injective f) {l : List Nat}
    (hnodup : l.Nodup) {s : Set β} (hl : ∀ n, n ∈ l ↔ ∃ b ∈ s, f b = n) : s.ncard = l.length := by
  have himage : f '' s = (l.toFinset : Set Nat) := by
    ext n
    rw [Set.mem_image, List.coe_toFinset, Set.mem_ofPred_eq, hl]
  rw [← Set.ncard_image_of_injective s hf, himage, Set.ncard_coe_finset,
    List.toFinset_card_of_nodup hnodup]

namespace Roster

/-- Rosters are equal when they list the same items. -/
theorem eq_iff_items_eq {α : Type} {rank : α → Nat} {r s : Roster α rank} :
    r = s ↔ r.items = s.items := by
  cases r
  cases s
  exact Roster.mk.injEq _ _ _ _ ▸ Iff.rfl

section Difference

variable {α β : Type} {rank : α → Nat} {f : β → Nat} [DecidableEq α]

/-- The sizes of a difference, counted by the things that the ranks stand for. -/
theorem ncard_difference (hf : Function.Injective f) (hrank : ∀ x, ∃ b, f b = rank x)
    (old new : Roster α rank) :
    {b | old.find? (f b) ≠ none ∧ new.find? (f b) = none}.ncard =
        (old.difference new).removed.length ∧
      {b | old.find? (f b) = none ∧ new.find? (f b) ≠ none}.ncard =
        (old.difference new).added.length ∧
      {b | old.find? (f b) ≠ none ∧ new.find? (f b) ≠ none ∧
        old.find? (f b) ≠ new.find? (f b)}.ncard = (old.difference new).changed.length ∧
      {b | old.find? (f b) ≠ new.find? (f b)}.ncard =
        ((old.difference new).ranks rank).length := by
  have hnodup := nodup_ranks_difference old new
  obtain ⟨hfirst, hchanged, -⟩ := List.nodup_append'.1 hnodup
  obtain ⟨hremoved, hadded, -⟩ := List.nodup_append'.1 hfirst
  have hranks (n : Nat) (hn : n ∈ (old.difference new).ranks rank) : ∃ b, f b = n := by
    have hitem : ∃ x, rank x = n := by
      simp only [Difference.ranks, List.mem_append, List.mem_map] at hn
      rcases hn with (⟨x, -, rfl⟩ | ⟨x, -, rfl⟩) | ⟨x, -, rfl⟩
      all_goals exact ⟨x, rfl⟩
    obtain ⟨x, rfl⟩ := hitem
    exact hrank x
  have hcount {l : List Nat} (hl : l.Nodup) {P : Nat → Prop} (hP : ∀ n, n ∈ l ↔ P n)
      (hsub : l ⊆ (old.difference new).ranks rank) : {b | P (f b)}.ncard = l.length := by
    refine ncard_eq_length hf hl fun n => ?_
    constructor
    · intro hn
      obtain ⟨b, rfl⟩ := hranks n (hsub hn)
      exact ⟨b, (hP _).1 hn, rfl⟩
    · rintro ⟨b, hb, rfl⟩
      exact (hP _).2 hb
  have hlength (xs : List α) : xs.length = (xs.map rank).length := (List.length_map rank).symm
  refine ⟨?_, ?_, ?_, ?_⟩
  · rw [hlength]
    exact hcount hremoved (fun n => mem_map_removed) (by simp [Difference.ranks])
  · rw [hlength]
    exact hcount hadded (fun n => mem_map_added) (by simp [Difference.ranks])
  · rw [hlength]
    exact hcount hchanged (fun n => mem_map_changed) (by simp [Difference.ranks])
  · exact hcount hnodup (fun n => mem_ranks_difference) (List.Subset.refl _)

end Difference

end Roster

namespace Change

/-- The change adds an item. -/
def adds : Change → Bool
  | .block _ | .limit _ => true
  | _ => false

/-- The change takes an item away. -/
def removes : Change → Bool
  | .unblock _ | .unlimit _ => true
  | _ => false

/-- The change replaces an item. -/
def revises : Change → Bool
  | .revise _ => true
  | _ => false

end Change

namespace Delta

variable {book after : Book} {config : Config} {calls xs ys zs : List Call}

/-- Effective calls are counted by the kind of their change, and the refused ones apart. -/
theorem foldl_count (calls : List Call) (delta : Delta) :
    calls.foldl count delta =
      { added := delta.added + (Call.effective calls).countP Change.adds
        removed := delta.removed + (Call.effective calls).countP Change.removes
        updated := delta.updated + (Call.effective calls).countP Change.revises
        failed := delta.failed + (Call.refused calls).length } := by
  induction calls generalizing delta with
  | nil => rfl
  | cons call calls ih =>
    rw [List.foldl_cons, ih, count]
    cases hcall : call.succeeded with
    | true =>
      have heffective : Call.effective (call :: calls) = call.change :: Call.effective calls := by
        rw [Call.effective, List.filter_cons_of_pos hcall]
        rfl
      have hrefused : Call.refused (call :: calls) = Call.refused calls := by
        rw [Call.refused, List.filter_cons_of_neg (by simp [hcall])]
        rfl
      rw [if_pos rfl, heffective, hrefused]
      cases call.change <;>
        simp only [List.countP_cons, Change.adds, Change.removes, Change.revises, if_true,
          Bool.false_eq_true, if_false, Nat.add_zero, Delta.mk.injEq, and_true, true_and] <;>
        omega
    | false =>
      have heffective : Call.effective (call :: calls) = Call.effective calls := by
        rw [Call.effective, List.filter_cons_of_neg (by simp [hcall])]
        rfl
      have hrefused : Call.refused (call :: calls) = call.change :: Call.refused calls := by
        rw [Call.refused, List.filter_cons_of_pos (by simp [hcall])]
        rfl
      rw [if_neg Bool.false_ne_true, heffective, hrefused, List.length_cons]
      simp only [Delta.mk.injEq, true_and]
      omega

section Between

variable {α : Type} {rank : α → Nat} [DecidableEq α] {old wanted new : Roster α rank}
  {configured : Option (Roster α rank)}

/-- The numbers of a part: how much leads from the old roster to the new one, and how much from
there to the wanted one. -/
def between (old new wanted : Roster α rank) : Delta where
  added := (old.difference new).added.length
  removed := (old.difference new).removed.length
  updated := (old.difference new).changed.length
  failed := ((new.difference wanted).ranks rank).length

/-- Something changed when the new roster is not the old one. -/
theorem changed_between : (between old new wanted).changed ↔ new ≠ old := by
  have hlength : ((old.difference new).ranks rank).length = (old.difference new).removed.length +
      (old.difference new).added.length + (old.difference new).changed.length := by
    simp only [Difference.ranks, List.length_append, List.length_map]
  have hnil : (old.difference new).ranks rank = [] ↔ old = new := Roster.ranks_difference_eq_nil_iff
  rw [← List.length_eq_zero_iff, hlength] at hnil
  rw [changed, decide_eq_true_iff, between, ne_comm, ne_eq, ← hnil]
  dsimp only
  omega

/-- Nothing failed when the new roster is the wanted one. -/
theorem failed_between : (between old new wanted).failed = 0 ↔ new = wanted := by
  rw [← Roster.ranks_difference_eq_nil_iff, ← List.length_eq_zero_iff]
  rfl

/-- A part that stays when it is not configured is reported as changed when it changed. -/
theorem any_changed_between (hkept : configured = none → new = old) :
    (configured.map fun _ => between old new wanted).any changed ↔ new ≠ old := by
  cases configured with
  | none => simp only [Option.map_none, Option.any_none, Bool.false_eq_true, hkept, ne_eq,
      not_true]
  | some roster =>
    rw [Option.map_some, Option.any_some]
    exact changed_between

/-- A part reports no failures when it is as configured, or not configured. -/
theorem failed_map_between : ((configured.map fun _ =>
      between old new (configured.getD new)).map failed).getD 0 = 0 ↔
    ∀ roster, configured = some roster → new = roster := by
  cases configured with
  | none => simp only [Option.map_none, Option.getD_none, reduceCtorEq, false_implies, implies_true]
  | some roster =>
    rw [Option.map_some, Option.map_some, Option.getD_some, Option.getD_some, failed_between]
    simp only [Option.some.injEq, forall_eq']

end Between

/-- The calls about the blacklist count what it gained and lost, and what it still lacks. -/
theorem ofCalls_blacklist (hparts : Call.Parts calls xs ys zs)
    (hled : book.LedTo after config xs ys) :
    ofCalls .blacklist calls =
      between book.blacklist after.blacklist (after.wantedBlacklist config) := by
  have hcalls : (calls.filter fun call => call.change.part = .blacklist) = xs := by
    rw [hparts.filter_eq fun part => part = .blacklist]
    exact (List.append_nil _).trans (List.append_nil _)
  have hrefused : (Call.refused xs).length = ((after.blacklist.difference
      (after.wantedBlacklist config)).ranks Prefix.rank).length := by
    rw [hled.blacklistRefused, ← Register.map_rank_changes (g := Register.blacklist),
      List.length_map]
  rw [ofCalls, hcalls, foldl_count, hrefused, hled.blacklistEffective, ← Book.blacklistChanges_eq,
    Book.blacklistChanges, between, Book.changed_difference_blacklist]
  simp [List.countP_append, List.countP_map, Function.comp_def, Change.adds, Change.removes,
    Change.revises]

/-- The calls about the rules count what they gained, lost and changed, and what they still lack. -/
theorem ofCalls_rateRules (hparts : Call.Parts calls xs ys zs)
    (hled : book.LedTo after config xs ys) :
    ofCalls .rateRules calls =
      between book.rateRules after.rateRules (after.wantedRateRules config) := by
  have hcalls : (calls.filter fun call => call.change.part = .rateRules) = ys := by
    rw [hparts.filter_eq fun part => part = .rateRules]
    exact List.append_nil _
  have hrefused : (Call.refused ys).length = ((after.rateRules.difference
      (after.wantedRateRules config)).ranks RateRule.rank).length := by
    rw [hled.rateRulesRefused, ← Register.map_rank_changes (g := Register.rateRules),
      List.length_map]
  rw [ofCalls, hcalls, foldl_count, hrefused, hled.rateRulesEffective, Register.changes, between]
  simp [List.countP_append, List.countP_map, Function.comp_def, Change.adds, Change.removes,
    Change.revises, Register.rateRules]

end Delta

/-- A blacklist has at the rank of a prefix the prefix, if it is listed. -/
theorem Prefix.find?_rank (blacklist : Blacklist) (p : Prefix) :
    blacklist.find? p.rank = if p ∈ blacklist.items then some p else none := by
  split
  next hp => exact Roster.mem_items_iff.1 hp
  next hp =>
    rw [← Prefix.has_rank_iff, Roster.has, Option.not_isSome_iff_eq_none] at hp
    exact hp

/-- The numbers of the blacklist are the sizes of the differences between the sets of prefixes. -/
theorem Delta.between_blacklist (old new wanted : Blacklist) :
    between old new wanted =
      { added := ({p | p ∈ new.items} \ {p | p ∈ old.items}).ncard
        removed := ({p | p ∈ old.items} \ {p | p ∈ new.items}).ncard
        updated := 0
        failed := (symmDiff {p | p ∈ new.items} {p | p ∈ wanted.items}).ncard } := by
  have hrank (p : Prefix) : ∃ q : Prefix, q.rank = p.rank := ⟨p, rfl⟩
  obtain ⟨hremoved, hadded, -, -⟩ :=
    Roster.ncard_difference (fun _ _ => Prefix.rank_injective) hrank old new
  obtain ⟨-, -, -, hfailed⟩ :=
    Roster.ncard_difference (fun _ _ => Prefix.rank_injective) hrank new wanted
  rw [between, ← hremoved, ← hadded, ← hfailed, Book.changed_difference_blacklist]
  simp only [Prefix.find?_rank, Delta.mk.injEq, List.length_nil, true_and]
  refine ⟨?_, ?_, ?_⟩
  all_goals
    refine congrArg Set.ncard (Set.ext fun p => ?_)
    simp only [Set.mem_ofPred_eq, Set.mem_sdiff, Set.mem_symmDiff]
    split <;> split <;> simp_all

/-- The numbers of the rules count the sources whose rules differ. -/
theorem Delta.between_rateRules (old new wanted : RateRules) :
    between old new wanted =
      { added := {source : Address |
          old.find? source.toNat = none ∧ new.find? source.toNat ≠ none}.ncard
        removed := {source : Address |
          old.find? source.toNat ≠ none ∧ new.find? source.toNat = none}.ncard
        updated := {source : Address | old.find? source.toNat ≠ none ∧
          new.find? source.toNat ≠ none ∧ old.find? source.toNat ≠ new.find? source.toNat}.ncard
        failed := {source : Address |
          new.find? source.toNat ≠ wanted.find? source.toNat}.ncard } := by
  have hrank (rule : RateRule) : ∃ source : Address, source.toNat = rule.rank := ⟨rule.source, rfl⟩
  obtain ⟨hremoved, hadded, hchanged, -⟩ :=
    Roster.ncard_difference Address.toNat_injective hrank old new
  obtain ⟨-, -, -, hfailed⟩ := Roster.ncard_difference Address.toNat_injective hrank new wanted
  rw [between, ← hremoved, ← hadded, ← hchanged, ← hfailed]

namespace Book

variable {capacity : Nat} {book : Book} {t : Tables capacity}

/-- The report tells the truth. Let a book track the tables, and let a configuration not be turned
down. Whichever calls fail, the report counts, of a configured blacklist, the prefixes that came to
be blocked, those that are blocked no more and those that are blocked or configured, but not both;
of configured rules it counts the sources whose rule appeared, disappeared or changed, and those
whose rule is not the configured one. It counts nothing of a part that is not configured. So it says
that something changed when the tables changed, and that nothing failed when each configured part is
as configured. -/
theorem report_tells_truth (h : book.Tracks t) (clock : UInt64) (faults : Faults) (config : Config)
    (report : Report) :
    let f : Faulty (Tables capacity) := { store := t, faults := faults }
    let p := reconcile clock config book f
    let after := p.store.store
    p.result = .ok report →
      (∀ new, config.blacklist = some new → report.blacklist = some
        { added := ({q | q ∈ after.blacklist} \ {q | q ∈ t.blacklist}).ncard
          removed := ({q | q ∈ t.blacklist} \ {q | q ∈ after.blacklist}).ncard
          updated := 0
          failed := (symmDiff {q | q ∈ after.blacklist} {q | q ∈ new.items}).ncard }) ∧
      (∀ new, config.rateRules = some new → report.rateRules = some
        { added := {source | t.rule? source = none ∧ after.rule? source ≠ none}.ncard
          removed := {source | t.rule? source ≠ none ∧ after.rule? source = none}.ncard
          updated := {source | t.rule? source ≠ none ∧ after.rule? source ≠ none ∧
            t.rule? source ≠ after.rule? source}.ncard
          failed := {source | after.rule? source ≠ new.find? source.toNat}.ncard }) ∧
      (report.blacklist = none ↔ config.blacklist = none) ∧
      (report.rateRules = none ↔ config.rateRules = none) ∧
      (report.changed ↔ after.blacklist ≠ t.blacklist ∨ after.rateRules ≠ t.rateRules) ∧
      (report.failed = 0 ↔
        (∀ new, config.blacklist = some new → after.blacklist = new.items) ∧
          ∀ new, config.rateRules = some new → after.rateRules = new.items) := by
  intro f p after hok
  have htells : p.Tells book clock config report := tells_reconcile hok
  have htracks : p.book.Tracks after := Tracks.reconcile_faulty (f := f) h clock config
  obtain ⟨xs, ys, zs, hparts, hled⟩ := htells.exists_ledTo
  have hblacklist : report.blacklist = config.blacklist.map fun _ =>
      Delta.between book.blacklist p.book.blacklist (p.book.wantedBlacklist config) := by
    rw [htells.blacklistDelta, Delta.ofCalls_blacklist hparts hled]
  have hrateRules : report.rateRules = config.rateRules.map fun _ =>
      Delta.between book.rateRules p.book.rateRules (p.book.wantedRateRules config) := by
    rw [htells.rateRulesDelta, Delta.ofCalls_rateRules hparts hled]
  refine ⟨fun new hnew => ?_, fun new hnew => ?_, ?_, ?_, ?_, ?_⟩
  · have hwanted : p.book.wantedBlacklist config = new := by
      rw [wantedBlacklist, hnew, Option.getD_some]
    rw [hblacklist, hnew, Option.map_some, hwanted, Delta.between_blacklist, h.blacklist_eq,
      htracks.blacklist_eq]
  · have hwanted : p.book.wantedRateRules config = new := by
      rw [wantedRateRules, hnew, Option.getD_some]
    rw [hrateRules, hnew, Option.map_some, hwanted, Delta.between_rateRules]
    simp only [h.rule?_eq, htracks.rule?_eq]
  · rw [hblacklist, Option.map_eq_none_iff]
  · rw [hrateRules, Option.map_eq_none_iff]
  · rw [Report.changed, Bool.or_eq_true, hblacklist, hrateRules,
      Delta.any_changed_between hled.blacklistKept, Delta.any_changed_between hled.rateRulesKept,
      h.blacklist_eq, htracks.blacklist_eq, h.rateRules_eq, htracks.rateRules_eq]
    simp only [ne_eq, Roster.eq_iff_items_eq]
  · rw [Report.failed, Nat.add_eq_zero_iff, hblacklist, hrateRules, wantedBlacklist,
      wantedRateRules, Delta.failed_map_between, Delta.failed_map_between, htracks.blacklist_eq,
      htracks.rateRules_eq]
    simp only [Roster.eq_iff_items_eq]

/-- A removal fails, so a full table has no room for the new prefix: these two are the prefixes that
are blocked or configured, but not both. The one rule takes the place of another one. -/
theorem report_tells_truth_when_refused :
    let s := (runAll Service.move
      [.pass 1 (fun _ _ => none) "interface=e\nip_blacklist=1.1.1.1\nip_rate_limits=3.3.3.3:5"]
      { store := (Tables.empty : Tables 1) }).2
    let config := Config.parse "interface=e\nip_blacklist=2.2.2.2\nip_rate_limits=4.4.4.4:7"
    let faults : Faults := fun n _ => if n = 0 then some (.failed .blacklist "busy") else none
    let f : Faulty (Tables 1) := { store := s.store, faults := faults }
    let p := reconcile 2 config s.book f
    let after := p.store.store
    p.result = .ok ⟨"e", false, some ⟨0, 0, 0, 2⟩, some ⟨1, 1, 0, 0⟩, [], some 2⟩ ∧
      (∃ new, config.blacklist = some new ∧
        (symmDiff {q | q ∈ after.blacklist} {q | q ∈ new.items}).ncard = 2) ∧
      (∃ new, config.rateRules = some new ∧
        {source | s.store.rule? source = none ∧ after.rule? source ≠ none}.ncard = 1 ∧
        {source | after.rule? source ≠ new.find? source.toNat}.ncard = 0) ∧
      (after.blacklist ≠ s.store.blacklist ∨ after.rateRules ≠ s.store.rateRules) := by
  intro s config faults f p after
  have htracks : s.book.Tracks s.store := Service.tracks_run 1 _
  have hok : p.result = .ok ⟨"e", false, some ⟨0, 0, 0, 2⟩, some ⟨1, 1, 0, 0⟩, [], some 2⟩ := by
    unfold p f faults config s
    rfl
  have hsome : config.blacklist.isSome := by
    unfold config
    rfl
  have hsome' : config.rateRules.isSome := by
    unfold config
    rfl
  obtain ⟨new, hnew⟩ := Option.isSome_iff_exists.1 hsome
  obtain ⟨rules, hrules⟩ := Option.isSome_iff_exists.1 hsome'
  obtain ⟨hblacklist, hrateRules, -, -, hchanged, -⟩ :=
    report_tells_truth htracks 2 faults config _ hok
  have hcounts := Option.some.inj (hblacklist new hnew)
  have hcounts' := Option.some.inj (hrateRules rules hrules)
  rw [Delta.mk.injEq] at hcounts hcounts'
  obtain ⟨-, -, -, hfailed⟩ := hcounts
  obtain ⟨hadded, -, -, hfailed'⟩ := hcounts'
  exact ⟨hok, ⟨new, hnew, hfailed.symm⟩, ⟨rules, hrules, hadded.symm, hfailed'.symm⟩,
    hchanged.1 rfl⟩

end Book

end SourceFilter
