import SourceFilter.Proofs.Convergence
import SourceFilter.Proofs.Mixture

/-!
# What the calls of a pass amount to

A pass tries what its plan says, and the book hears only whether each call took effect. So the book
after some calls depends on their outcomes alone, whatever store gave them. The changes that took
effect are the ones that lead from the old book to the new one, and the changes that were refused
are the ones that lead on from there to the configuration, in the order of the plan in both cases.
-/

namespace SourceFilter

/-- The rank of the item that a change is about. -/
def Change.rank : Change → Nat
  | .unblock p | .block p => p.rank
  | .unlimit rule | .limit rule | .revise rule => rule.rank
  | .stamp _ => 0

namespace Call

/-- The changes that took effect. -/
def effective (calls : List Call) : List Change := (calls.filter succeeded).map Call.change

/-- The changes that were refused. -/
def refused (calls : List Call) : List Change :=
  (calls.filter fun call => !call.succeeded).map Call.change

/-- The ranks at which changes took effect. -/
def settled (calls : List Call) : List Nat := (effective calls).map Change.rank

variable {calls : List Call} {call : Call} {change : Change}

/-- One more call that took effect settles one more rank. -/
theorem settled_append_ok :
    settled (calls ++ [⟨change, .ok ()⟩]) = settled calls ++ [change.rank] := by
  have hfilter : [(⟨change, .ok ()⟩ : Call)].filter succeeded = [⟨change, .ok ()⟩] := rfl
  simp only [settled, effective, List.filter_append, List.map_append, hfilter, List.map_cons,
    List.map_nil]

/-- One more call that was refused settles nothing. -/
theorem settled_append_error {e : StoreError} :
    settled (calls ++ [⟨change, .error e⟩]) = settled calls := by
  have hfilter : [(⟨change, .error e⟩ : Call)].filter succeeded = [] := rfl
  simp only [settled, effective, List.filter_append, hfilter, List.append_nil]

/-- What was refused of two lists of calls, one list after the other. -/
theorem refused_append (xs ys : List Call) : refused (xs ++ ys) = refused xs ++ refused ys := by
  rw [refused, List.filter_append, List.map_append]
  rfl

section Distinct

variable (hnodup : ((calls.map Call.change).map Change.rank).Nodup)
include hnodup

/-- When no rank is tried twice, a call took effect when its rank is settled. -/
theorem succeeded_eq (hcall : call ∈ calls) :
    call.succeeded = decide (call.change.rank ∈ settled calls) := by
  rw [Bool.eq_iff_iff, decide_eq_true_iff, settled, effective, List.map_map, List.mem_map]
  constructor
  · intro hsucceeded
    exact ⟨call, List.mem_filter.2 ⟨hcall, hsucceeded⟩, rfl⟩
  · rintro ⟨call', hmem, hrank⟩
    obtain ⟨hcall', hsucceeded⟩ := List.mem_filter.1 hmem
    rw [List.map_map] at hnodup
    rwa [← List.inj_on_of_nodup_map hnodup hcall' hcall hrank]

/-- The changes that took effect are those of the settled ranks. -/
theorem effective_eq_filter : effective calls =
    (calls.map Call.change).filter fun change => change.rank ∈ settled calls := by
  rw [List.filter_map, effective]
  refine congrArg (List.map _) (List.filter_congr fun call hcall => ?_)
  rw [succeeded_eq hnodup hcall, Function.comp_apply]

/-- The changes that were refused are those of the other ranks. -/
theorem refused_eq_filter : refused calls =
    (calls.map Call.change).filter fun change => change.rank ∉ settled calls := by
  rw [List.filter_map, refused]
  refine congrArg (List.map _) (List.filter_congr fun call hcall => ?_)
  rw [succeeded_eq hnodup hcall, Function.comp_apply, decide_not]

end Distinct

/-- The calls of a pass are made one part of the store after the other. -/
structure Parts (calls xs ys zs : List Call) : Prop where
  /-- The calls are those of the three parts. -/
  eq : calls = xs ++ ys ++ zs
  /-- The first ones are about the blacklist. -/
  blacklist : ∀ call ∈ xs, call.change.part = .blacklist
  /-- Then come those about the rules. -/
  rateRules : ∀ call ∈ ys, call.change.part = .rateRules
  /-- The last ones are about the generation number. -/
  generation : ∀ call ∈ zs, call.change.part = .generation

namespace Parts

variable {xs ys zs : List Call}

/-- The calls about some parts are those of the lists that are about one of them. -/
theorem filter_eq (h : Parts calls xs ys zs) (P : StorePart → Bool) :
    (calls.filter fun call => P call.change.part) =
      (if P .blacklist then xs else []) ++ (if P .rateRules then ys else []) ++
        (if P .generation then zs else []) := by
  have hpart {part : StorePart} {cs : List Call} (hcs : ∀ call ∈ cs, call.change.part = part) :
      (cs.filter fun call => P call.change.part) = if P part then cs else [] := by
    split
    next hP =>
      rw [List.filter_eq_self]
      intro call hcall
      rw [hcs call hcall, hP]
    next hP =>
      rw [List.filter_eq_nil_iff]
      intro call hcall
      rwa [hcs call hcall]
  rw [h.eq, List.filter_append, List.filter_append, hpart h.blacklist, hpart h.rateRules,
    hpart h.generation]

/-- The first calls come one part after the other, too. -/
theorem take (h : Parts calls xs ys zs) (n : Nat) :
    ∃ k m, Parts (calls.take n) (xs.take n) (ys.take k) (zs.take m) := by
  refine ⟨n - xs.length, n - (xs ++ ys).length, ?_, fun call hcall => ?_, fun call hcall => ?_,
    fun call hcall => ?_⟩
  · rw [h.eq, List.take_append, List.take_append]
  · exact h.blacklist call (List.mem_of_mem_take hcall)
  · exact h.rateRules call (List.mem_of_mem_take hcall)
  · exact h.generation call (List.mem_of_mem_take hcall)

end Parts

end Call

/-- The book after some calls. -/
def Book.hearAll (book : Book) (calls : List Call) : Book :=
  calls.foldl (fun book call => book.hear call.change call.outcome) book

/-- The book after one more call. -/
theorem Book.hearAll_append_singleton (book : Book) (calls : List Call) (call : Call) :
    book.hearAll (calls ++ [call]) = (book.hearAll calls).hear call.change call.outcome := by
  rw [hearAll, List.foldl_append]
  rfl

section CarryOut

variable {σ : Type} [Store σ] (changes : List Change) (book : Book) (s : σ)

/-- Each change is tried once, in the order of the list. -/
theorem map_change_carryOut : (carryOut changes book s).1.map Call.change = changes := by
  induction changes generalizing book s with
  | nil => rfl
  | cons change changes ih =>
    rw [carryOut_cons]
    simp only [List.map_cons, ih]

/-- The book afterwards is what the calls tell. -/
theorem book_carryOut :
    (carryOut changes book s).2.1 = book.hearAll (carryOut changes book s).1 := by
  induction changes generalizing book s with
  | nil => rfl
  | cons change changes ih =>
    rw [carryOut_cons]
    simp only [ih]
    rfl

/-- The calls for the first changes are the first calls. -/
theorem carryOut_take (n : Nat) :
    (carryOut (changes.take n) book s).1 = (carryOut changes book s).1.take n := by
  induction changes generalizing book s n with
  | nil => rw [List.take_nil, carryOut, List.take_nil]
  | cons change changes ih =>
    cases n with
    | zero => rfl
    | succ n =>
      rw [List.take_succ_cons, carryOut_cons, carryOut_cons]
      simp only [ih, List.take_succ_cons]

end CarryOut

namespace Register

variable {α : Type} {rank : α → Nat} {g : Register rank} {old new r : Roster α rank}
  {calls : List Call} {change : Change}

/-- The changes of a register are about its part, and about the ranks of their items. -/
class Labelled (g : Register rank) : Prop where
  /-- Items are dropped from this part. -/
  part_drop : ∀ x, (g.drop x).part = g.part
  /-- Items of this part are revised. -/
  part_revise : ∀ x, (g.revise x).part = g.part
  /-- A dropped item is known by its rank. -/
  rank_drop : ∀ x, (g.drop x).rank = rank x
  /-- An added item is known by its rank. -/
  rank_add : ∀ x, (g.add x).rank = rank x
  /-- A revised item is known by its rank. -/
  rank_revise : ∀ x, (g.revise x).rank = rank x

instance : Register.blacklist.Labelled :=
  ⟨fun _ => rfl, fun _ => rfl, fun _ => rfl, fun _ => rfl, fun _ => rfl⟩

instance : Register.rateRules.Labelled :=
  ⟨fun _ => rfl, fun _ => rfl, fun _ => rfl, fun _ => rfl, fun _ => rfl⟩

variable [DecidableEq α]

/-- A change that leads from one roster to another drops a removed item, adds an added one or
revises a changed one. -/
theorem mem_changes : change ∈ g.changes old new ↔
    (∃ x ∈ (old.difference new).removed, g.drop x = change) ∨
      (∃ x ∈ (old.difference new).added, g.add x = change) ∨
      (∃ x ∈ (old.difference new).changed, g.revise x = change) := by
  simp only [changes, List.mem_append, List.mem_map, or_assoc]

variable [hg : g.Labelled]

/-- The changes of a register are about its part. -/
theorem part_of_mem_changes (h : change ∈ g.changes old new) : change.part = g.part := by
  rcases mem_changes.1 h with ⟨x, -, rfl⟩ | ⟨x, -, rfl⟩ | ⟨x, -, rfl⟩
  · exact hg.part_drop x
  · exact g.part_add x
  · exact hg.part_revise x

/-- The ranks of the changes are those of the difference. -/
theorem map_rank_changes (old new : Roster α rank) :
    (g.changes old new).map Change.rank = (old.difference new).ranks rank := by
  simp only [changes, Difference.ranks, List.map_append, List.map_map, Function.comp_def,
    hg.rank_drop, hg.rank_add, hg.rank_revise]

/-- The changes of some ranks are those of a part of the difference. -/
theorem filter_changes (p : Nat → Bool) {r s : Roster α rank}
    (h : r.difference s = (old.difference new).filter fun x => p (rank x)) :
    ((g.changes old new).filter fun change => p change.rank) = g.changes r s := by
  simp only [changes, h, Difference.filter, List.filter_append, List.filter_map,
    Function.comp_def, hg.rank_drop, hg.rank_add, hg.rank_revise]

/-- Whichever of the changes are tried, in whatever order, and whether they take effect or not, the
roster stays on the way, and exactly the ranks of the effective changes are settled. -/
theorem hearAll_mixes (hcalls : ∀ call ∈ calls, call.change ∈ g.changes old new) (book : Book) :
    ∃ r, (g.write book old).hearAll calls = g.write book r ∧
      r.Mixes old new (Call.settled calls) := by
  induction calls using List.reverseRecOn with
  | nil => exact ⟨old, rfl, Roster.Mixes.start⟩
  | append_singleton calls call ih =>
    obtain ⟨r, hbook, hmixes⟩ := ih fun c hc => hcalls c (List.mem_append_left _ hc)
    have hcall := hcalls call (List.mem_append_right _ (List.mem_singleton_self call))
    rw [Book.hearAll_append_singleton, hbook]
    obtain ⟨change, outcome⟩ := call
    cases outcome with
    | error e =>
      rw [Book.hear_error, Call.settled_append_error]
      exact ⟨r, rfl, hmixes⟩
    | ok u =>
      rw [Book.hear_ok, Call.settled_append_ok]
      rcases mem_changes.1 hcall with ⟨x, hx, rfl⟩ | ⟨x, hx, rfl⟩ | ⟨x, hx, rfl⟩
      · rw [g.learn_drop, hg.rank_drop]
        exact ⟨_, rfl, hmixes.erase (Roster.mem_removed_iff_find?.1 hx).2⟩
      · rw [g.learn_add, hg.rank_add]
        exact ⟨_, rfl, hmixes.insert (Roster.mem_added.1 hx).1⟩
      · rw [g.learn_revise, hg.rank_revise]
        exact ⟨_, rfl, hmixes.insert (Roster.mem_changed.1 hx).1⟩

/-- What took effect leads from the old roster to the mixed one. -/
theorem effective_eq (hcalls : calls.map Call.change = g.changes old new)
    (hmixes : r.Mixes old new (Call.settled calls)) :
    Call.effective calls = g.changes old r := by
  have hnodup : ((calls.map Call.change).map Change.rank).Nodup := by
    rw [hcalls, map_rank_changes]
    exact Roster.nodup_ranks_difference old new
  rw [Call.effective_eq_filter hnodup, hcalls]
  exact filter_changes (fun n => n ∈ Call.settled calls) hmixes.difference_old

/-- What was refused leads from the mixed roster to the new one. -/
theorem refused_eq (hcalls : calls.map Call.change = g.changes old new)
    (hmixes : r.Mixes old new (Call.settled calls)) :
    Call.refused calls = g.changes r new := by
  have hnodup : ((calls.map Call.change).map Change.rank).Nodup := by
    rw [hcalls, map_rank_changes]
    exact Roster.nodup_ranks_difference old new
  rw [Call.refused_eq_filter hnodup, hcalls]
  exact filter_changes (fun n => n ∉ Call.settled calls) hmixes.difference_new

/-- Nothing leads from a roster to itself. -/
theorem changes_self (old : Roster α rank) : g.changes old old = [] := by
  have hranks := Roster.ranks_difference_eq_nil_iff.2 (rfl : old = old)
  rwa [← map_rank_changes (g := g), List.map_eq_nil_iff] at hranks

end Register

namespace Book

variable {book : Book} {config : Config} {clock : UInt64} {calls xs ys zs : List Call}

/-- The blacklist that a configuration asks for: without one, that of the book. -/
def wantedBlacklist (book : Book) (config : Config) : Blacklist :=
  config.blacklist.getD book.blacklist

/-- The rules that a configuration asks for: without any, those of the book. -/
def wantedRateRules (book : Book) (config : Config) : RateRules :=
  config.rateRules.getD book.rateRules

/-- A plan leads to the wanted blacklist, then to the wanted rules, and sets the generation number
in the end. -/
theorem plan_eq (book : Book) (clock : UInt64) (config : Config) :
    book.plan clock config =
      Register.blacklist.changes book.blacklist (book.wantedBlacklist config) ++
        Register.rateRules.changes book.rateRules (book.wantedRateRules config) ++
        [.stamp (nextGeneration clock book.generation)] := by
  have hblacklist : (config.blacklist.map book.blacklistChanges).getD [] =
      Register.blacklist.changes book.blacklist (book.wantedBlacklist config) := by
    unfold wantedBlacklist
    cases config.blacklist with
    | none => exact (Register.changes_self _).symm
    | some new => exact book.blacklistChanges_eq new
  have hrateRules : (config.rateRules.map book.rateRuleChanges).getD [] =
      Register.rateRules.changes book.rateRules (book.wantedRateRules config) := by
    unfold wantedRateRules
    cases config.rateRules with
    | none => exact (Register.changes_self _).symm
    | some new => rfl
  rw [plan, hblacklist, hrateRules]

/-- Calls about the generation number change nothing else in the book. -/
theorem hearAll_of_generation (hzs : ∀ call ∈ zs, call.change.part = .generation) (book : Book) :
    (book.hearAll zs).blacklist = book.blacklist ∧
      (book.hearAll zs).rateRules = book.rateRules := by
  induction zs using List.reverseRecOn with
  | nil => exact ⟨rfl, rfl⟩
  | append_singleton zs call ih =>
    obtain ⟨hblacklist, hrateRules⟩ := ih fun c hc => hzs c (List.mem_append_left _ hc)
    have hcall := hzs call (List.mem_append_right _ (List.mem_singleton_self call))
    rw [hearAll_append_singleton, hear]
    split
    · have hpart : call.change.part ≠ .blacklist := by
        rw [hcall]
        decide
      have hpart' : call.change.part ≠ .rateRules := by
        rw [hcall]
        decide
      exact ⟨(learn_blacklist hpart _).trans hblacklist,
        (learn_rateRules hpart' _).trans hrateRules⟩
    · exact ⟨hblacklist, hrateRules⟩

/-- After some calls of a pass, one part after the other, the blacklist and the rules of the book
are on the way to the wanted ones. -/
theorem hearAll_mixes {blacklist : Blacklist} {rateRules : RateRules}
    (hparts : Call.Parts calls xs ys zs)
    (hxs : ∀ call ∈ xs, call.change ∈ Register.blacklist.changes book.blacklist blacklist)
    (hys : ∀ call ∈ ys, call.change ∈ Register.rateRules.changes book.rateRules rateRules) :
    (book.hearAll calls).blacklist.Mixes book.blacklist blacklist (Call.settled xs) ∧
      (book.hearAll calls).rateRules.Mixes book.rateRules rateRules (Call.settled ys) := by
  obtain ⟨blacklist', hbook, hmixes⟩ := Register.hearAll_mixes hxs book
  obtain ⟨rateRules', hbook', hmixes'⟩ :=
    Register.hearAll_mixes hys { book with blacklist := blacklist' }
  have htables : book.hearAll (xs ++ ys) =
      { book with blacklist := blacklist', rateRules := rateRules' } := by
    rw [hearAll, List.foldl_append]
    exact (congrArg (hearAll · ys) hbook).trans hbook'
  have hall : book.hearAll calls = (book.hearAll (xs ++ ys)).hearAll zs := by
    rw [hparts.eq]
    exact List.foldl_append
  obtain ⟨hblacklist, hrateRules⟩ :=
    hearAll_of_generation hparts.generation (book.hearAll (xs ++ ys))
  rw [htables] at hall hblacklist hrateRules
  rw [hall, hblacklist, hrateRules]
  exact ⟨hmixes, hmixes'⟩

/-- The calls for a plan come one part after the other. -/
theorem exists_parts (hcalls : calls.map Call.change = book.plan clock config) :
    ∃ xs ys zs, Call.Parts calls xs ys zs ∧
      xs.map Call.change =
        Register.blacklist.changes book.blacklist (book.wantedBlacklist config) ∧
      ys.map Call.change =
        Register.rateRules.changes book.rateRules (book.wantedRateRules config) ∧
      zs.map Call.change = [.stamp (nextGeneration clock book.generation)] := by
  rw [plan_eq] at hcalls
  obtain ⟨calls', zs, rfl, hcalls', hzs⟩ := List.map_eq_append_iff.1 hcalls
  obtain ⟨xs, ys, rfl, hxs, hys⟩ := List.map_eq_append_iff.1 hcalls'
  refine ⟨xs, ys, zs, ⟨rfl, fun call hcall => ?_, fun call hcall => ?_, fun call hcall => ?_⟩, hxs,
    hys, hzs⟩
  · exact Register.part_of_mem_changes (hxs ▸ List.mem_map_of_mem hcall)
  · exact Register.part_of_mem_changes (hys ▸ List.mem_map_of_mem hcall)
  · have hstamp : call.change ∈ zs.map Call.change := List.mem_map_of_mem hcall
    rw [hzs, List.mem_singleton] at hstamp
    rw [hstamp]
    rfl

/-- Calls about the blacklist and calls about the rules led from one book to another on the way to a
configuration. -/
structure LedTo (book after : Book) (config : Config) (xs ys : List Call) : Prop where
  /-- The effective changes of the blacklist lead from the old one to the new one. -/
  blacklistEffective :
    Call.effective xs = Register.blacklist.changes book.blacklist after.blacklist
  /-- The refused ones lead from the new one to the wanted one. -/
  blacklistRefused : Call.refused xs =
    Register.blacklist.changes after.blacklist (after.wantedBlacklist config)
  /-- The effective changes of the rules lead from the old ones to the new ones. -/
  rateRulesEffective :
    Call.effective ys = Register.rateRules.changes book.rateRules after.rateRules
  /-- The refused ones lead from the new ones to the wanted ones. -/
  rateRulesRefused : Call.refused ys =
    Register.rateRules.changes after.rateRules (after.wantedRateRules config)
  /-- A blacklist that is not configured stays. -/
  blacklistKept : config.blacklist = none → after.blacklist = book.blacklist
  /-- Rules that are not configured stay. -/
  rateRulesKept : config.rateRules = none → after.rateRules = book.rateRules

/-- The calls for a plan lead to the book that hears them all. -/
theorem exists_ledTo (hcalls : calls.map Call.change = book.plan clock config) :
    ∃ xs ys zs, Call.Parts calls xs ys zs ∧ book.LedTo (book.hearAll calls) config xs ys := by
  obtain ⟨xs, ys, zs, hparts, hxs, hys, -⟩ := exists_parts hcalls
  have hxs' : ∀ call ∈ xs, call.change ∈
      Register.blacklist.changes book.blacklist (book.wantedBlacklist config) :=
    fun call hcall => hxs ▸ List.mem_map_of_mem hcall
  have hys' : ∀ call ∈ ys, call.change ∈
      Register.rateRules.changes book.rateRules (book.wantedRateRules config) :=
    fun call hcall => hys ▸ List.mem_map_of_mem hcall
  obtain ⟨hmixes, hmixes'⟩ := hearAll_mixes hparts hxs' hys'
  have hkept : config.blacklist = none → (book.hearAll calls).blacklist = book.blacklist := by
    intro hnone
    rw [wantedBlacklist, hnone] at hmixes
    exact hmixes.eq_self
  have hkept' : config.rateRules = none → (book.hearAll calls).rateRules = book.rateRules := by
    intro hnone
    rw [wantedRateRules, hnone] at hmixes'
    exact hmixes'.eq_self
  -- what is wanted stays the same on the way, also where it is what the book has
  have hwanted : (book.hearAll calls).wantedBlacklist config = book.wantedBlacklist config := by
    unfold wantedBlacklist
    cases hconfig : config.blacklist with
    | none => exact hkept hconfig
    | some new => rfl
  have hwanted' : (book.hearAll calls).wantedRateRules config = book.wantedRateRules config := by
    unfold wantedRateRules
    cases hconfig : config.rateRules with
    | none => exact hkept' hconfig
    | some new => rfl
  refine ⟨xs, ys, zs, hparts, Register.effective_eq hxs hmixes, ?_,
    Register.effective_eq hys hmixes', ?_, hkept, hkept'⟩
  · rw [hwanted]
    exact Register.refused_eq hxs hmixes
  · rw [hwanted']
    exact Register.refused_eq hys hmixes'

/-- A configuration is for the interface that it names. -/
theorem interface_of_interfaceFor {binding : String × Bool}
    (h : book.interfaceFor config = .ok binding) : config.interface = some binding.1 := by
  unfold interfaceFor at h
  split at h
  next => cases h
  next hconfig _ =>
    cases h
    exact hconfig
  next hconfig _ =>
    split at h
    · cases h
      exact hconfig
    · cases h

/-- A configuration is not turned down when it names an interface and no other one is bound. -/
theorem interfaceFor_of_bound {interface : String} (hconfig : config.interface = some interface)
    (hbound : book.interface = none ∨ book.interface = some interface) :
    ∃ first, book.interfaceFor config = .ok (interface, first) := by
  unfold interfaceFor
  rcases hbound with hnone | hsome
  · rw [hconfig, hnone]
    exact ⟨true, rfl⟩
  · rw [hconfig, hsome]
    exact ⟨false, if_pos rfl⟩

end Book

/-- A pass tried what was planned, and its report and its book tell how the calls went. -/
structure Pass.Tells {σ : Type} (p : Pass σ) (book : Book) (clock : UInt64) (config : Config)
    (report : Report) : Prop where
  /-- The configuration names the interface of the report. -/
  interface : config.interface = some report.interface
  /-- This interface is bound now. -/
  bound : p.book.interface = some report.interface
  /-- Each planned change was tried once. -/
  calls : p.calls.map Call.change = book.plan clock config
  /-- The blacklist is what the calls tell. -/
  blacklist : p.book.blacklist = (book.hearAll p.calls).blacklist
  /-- The rules are what the calls tell. -/
  rateRules : p.book.rateRules = (book.hearAll p.calls).rateRules
  /-- The calls about a configured blacklist are counted. -/
  blacklistDelta : report.blacklist = config.blacklist.map fun _ => Delta.ofCalls .blacklist p.calls
  /-- The calls about configured rules are counted. -/
  rateRulesDelta : report.rateRules = config.rateRules.map fun _ => Delta.ofCalls .rateRules p.calls
  /-- The warnings are those of the configuration. -/
  warnings : report.warnings = config.warnings

section Reconcile

variable {σ : Type} [Store σ] {book : Book} {config : Config} {clock : UInt64} {s : σ}

/-- A pass whose configuration is for some interface is not turned down. -/
theorem exists_report {binding : String × Bool} (h : book.interfaceFor config = .ok binding)
    (clock : UInt64) (s : σ) : ∃ report, (reconcile clock config book s).result = .ok report := by
  unfold reconcile
  rw [h]
  exact ⟨_, rfl⟩

/-- A pass that is not turned down carries out its plan. -/
theorem reconcile_eq_carryOut {report : Report}
    (hok : (reconcile clock config book s).result = .ok report) :
    (reconcile clock config book s).calls = (carryOut (book.plan clock config) book s).1 ∧
      (reconcile clock config book s).store = (carryOut (book.plan clock config) book s).2.2 := by
  unfold reconcile at hok ⊢
  cases hinterface : book.interfaceFor config with
  | error e =>
    rw [hinterface] at hok
    cases hok
  | ok binding => exact ⟨rfl, rfl⟩

/-- A pass that is not turned down tells how its calls went. -/
theorem tells_reconcile {report : Report}
    (hok : (reconcile clock config book s).result = .ok report) :
    (reconcile clock config book s).Tells book clock config report := by
  have hbook := book_carryOut (book.plan clock config) book s
  have hblacklist := congrArg Book.blacklist hbook
  have hrateRules := congrArg Book.rateRules hbook
  have hchanges := map_change_carryOut (book.plan clock config) book s
  unfold reconcile at hok ⊢
  cases hinterface : book.interfaceFor config with
  | error e =>
    rw [hinterface] at hok
    cases hok
  | ok binding =>
    rw [hinterface] at hok
    cases hok
    have hconfig := Book.interface_of_interfaceFor hinterface
    exact ⟨hconfig, rfl, hchanges, hblacklist, hrateRules, rfl, rfl, rfl⟩

end Reconcile

/-- The calls of a pass lead from the book before it to the book after it. -/
theorem Pass.Tells.exists_ledTo {σ : Type} {p : Pass σ} {book : Book} {clock : UInt64}
    {config : Config} {report : Report} (h : p.Tells book clock config report) :
    ∃ xs ys zs, Call.Parts p.calls xs ys zs ∧ book.LedTo p.book config xs ys := by
  obtain ⟨xs, ys, zs, hparts, hled⟩ := Book.exists_ledTo h.calls
  have hwanted : p.book.wantedBlacklist config = (book.hearAll p.calls).wantedBlacklist config := by
    rw [Book.wantedBlacklist, Book.wantedBlacklist, h.blacklist]
  have hwanted' :
      p.book.wantedRateRules config = (book.hearAll p.calls).wantedRateRules config := by
    rw [Book.wantedRateRules, Book.wantedRateRules, h.rateRules]
  refine ⟨xs, ys, zs, hparts, ?_⟩
  constructor
  · rw [h.blacklist]
    exact hled.blacklistEffective
  · rw [hwanted, h.blacklist]
    exact hled.blacklistRefused
  · rw [h.rateRules]
    exact hled.rateRulesEffective
  · rw [hwanted', h.rateRules]
    exact hled.rateRulesRefused
  · rw [h.blacklist]
    exact hled.blacklistKept
  · rw [h.rateRules]
    exact hled.rateRulesKept

/-- Whether a call set the generation number. -/
def Call.stamps (call : Call) : Bool := call.change.part = .generation && call.succeeded

section Generation

variable {σ : Type} [Store σ] {change : Change} {changes : List Change} {generation : UInt64}

/-- The book has a new generation number after a call that set it. -/
theorem Book.generation_hear (hstamp : change.part = .generation → change = .stamp generation)
    (book : Book) (outcome : Except StoreError Unit) :
    (book.hear change outcome).generation =
      if (⟨change, outcome⟩ : Call).stamps then generation else book.generation := by
  cases outcome with
  | error e =>
    have hstamps : (⟨change, .error e⟩ : Call).stamps = false := Bool.and_false _
    rw [hear_error, hstamps, if_neg Bool.false_ne_true]
  | ok _ =>
    rw [hear_ok]
    cases change with
    | stamp n =>
      cases hstamp rfl
      rfl
    | _ => rfl

/-- The book has a new generation number after calls one of which set it. -/
theorem generation_carryOut
    (hstamps : ∀ change ∈ changes, change.part = .generation → change = .stamp generation)
    (book : Book) (s : σ) :
    (carryOut changes book s).2.1.generation =
      if (carryOut changes book s).1.any Call.stamps then generation else book.generation := by
  induction changes generalizing book s with
  | nil => rfl
  | cons change changes ih =>
    obtain ⟨hstamp, hrest⟩ := List.forall_mem_cons.1 hstamps
    simp only [carryOut_cons, ih hrest, Book.generation_hear hstamp, List.any_cons]
    by_cases hfirst : (⟨change, (Store.perform change.mutation s).1⟩ : Call).stamps = true
    · simp only [hfirst, if_true, ite_self, Bool.true_or]
    · simp only [hfirst, Bool.false_eq_true, if_false, Bool.false_or]

/-- The only planned change of the generation number is the last one. -/
theorem Book.eq_stamp_of_mem_plan {book : Book} {clock : UInt64} {config : Config}
    (h : change ∈ book.plan clock config) (hpart : change.part = .generation) :
    change = .stamp (nextGeneration clock book.generation) := by
  rw [plan_eq, List.mem_append, List.mem_append, List.mem_singleton] at h
  rcases h with (h | h) | h
  · rw [Register.part_of_mem_changes h] at hpart
    cases hpart
  · rw [Register.part_of_mem_changes h] at hpart
    cases hpart
  · exact h

/-- A pass leaves the generation number that it reports, or else the one that was there. -/
theorem generation_reconcile (clock : UInt64) (config : Config) (book : Book) (s : σ) :
    let p := reconcile clock config book s
    p.book.generation = (p.result.toOption.bind Report.generation).getD book.generation := by
  have hstamps : ∀ change ∈ book.plan clock config, change.part = .generation →
      change = .stamp (nextGeneration clock book.generation) := fun _ => Book.eq_stamp_of_mem_plan
  have hcarry := generation_carryOut hstamps book s
  simp only [reconcile]
  cases book.interfaceFor config with
  | error e => rfl
  | ok binding =>
    refine hcarry.trans ?_
    change _ = (if (carryOut (book.plan clock config) book s).1.any Call.stamps then
      some (nextGeneration clock book.generation) else none).getD book.generation
    split <;> rfl

end Generation

end SourceFilter
