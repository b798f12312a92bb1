import SourceFilter.Proofs.Effects
import SourceFilter.Proofs.LongestMatch

/-!
# Tables in the middle of a pass

Packets are judged while a pass is under way, so the tables matter between any two of its calls. At
each such point, whichever calls failed before it, every prefix and every source is as it was before
the pass or as it is configured. What is the same in both is never touched. Removals come before
what is set, the blacklist before the rules, and the generation number is set once, in the end.
-/

namespace SourceFilter

namespace Mutation

/-- When in a pass a mutation has its turn. -/
def phase : Mutation → Nat
  | .unblock _ => 0
  | .block _ => 1
  | .unlimit _ => 2
  | .limit _ => 3
  | .stamp _ => 4

/-- The source whose rule a mutation is about. -/
def source? : Mutation → Option Address
  | .limit rule => some rule.source
  | .unlimit source => some source
  | .block _ | .unblock _ | .stamp _ => none

end Mutation

namespace Tables

variable {capacity : Nat}

/-- The rule in force for a source. -/
def rule? (t : Tables capacity) (source : Address) : Option RateRule :=
  (t.rates.get? source.toNat).bind fun rate => rate.map (RateRule.mk source)

/-- The tables are between those before a pass and a configured blacklist and configured rules. -/
structure Between (mid before : Tables capacity) (blacklist : Blacklist) (rules : RateRules) :
    Prop where
  /-- A blocked prefix that stays configured is blocked. -/
  kept : ∀ p ∈ before.blacklist, p ∈ blacklist.items → p ∈ mid.blacklist
  /-- What is blocked was blocked before or is configured. -/
  known : ∀ p ∈ mid.blacklist, p ∈ before.blacklist ∨ p ∈ blacklist.items
  /-- A source that a prefix held before and in the configuration has a match, if the counts of the
  prefixes cannot wrap around. -/
  matched : capacity < 2 ^ 32 →
    ∀ source, (∃ p ∈ before.blacklist, p ∈ blacklist.items ∧ p.holds source) →
      (mid.longestMatch source).isSome
  /-- A source that no prefix held before or in the configuration has none. -/
  unmatched : ∀ source, (∀ p, p ∈ before.blacklist ∨ p ∈ blacklist.items → ¬ p.holds source) →
    mid.longestMatch source = none
  /-- The rule of a source is the one from before, or the configured one, also where there is no
  rule. -/
  rule : ∀ source,
    mid.rule? source = before.rule? source ∨ mid.rule? source = rules.find? source.toNat

end Tables

namespace Book

variable {capacity : Nat} {book after : Book} {t mid : Tables capacity} {blacklist : Blacklist}
  {rules : RateRules} {settled settled' : List Nat} {config : Config} {clock : UInt64}
  {change : Change} {source : Address}

namespace Tracks

/-- The rule in force for a source is the one in the book. -/
theorem rule?_eq (h : book.Tracks t) (source : Address) :
    t.rule? source = book.rateRules.find? source.toNat := by
  obtain ⟨r, henforces, hmirrors⟩ := h
  rw [Tables.rule?, henforces.limits.get?_number]
  cases hrate : r.rates.lookup source with
  | some rate =>
    have hrule : (⟨source, rate⟩ : RateRule) ∈ book.rateRules.items :=
      (hmirrors.rateRules ⟨source, rate⟩).2 hrate
    exact (Roster.mem_items_iff.1 hrule).symm
  | none =>
    have hnone : ¬ book.rateRules.has source.toNat := by
      rw [hmirrors.has_source_iff]
      exact Finmap.lookup_eq_none.1 hrate
    rw [Roster.has, Option.not_isSome_iff_eq_none] at hnone
    exact hnone.symm

/-- With room for fewer than 2^32 prefixes, a source has a match when a listed prefix holds it. -/
theorem isSome_longestMatch (h : book.Tracks t) (hcapacity : capacity < 2 ^ 32)
    (hholds : ∃ p ∈ t.blacklist, p.holds source) : (t.longestMatch source).isSome := by
  obtain ⟨r, henforces, -⟩ := h
  rw [henforces.blocks.isSome_longestMatch hcapacity]
  simpa only [henforces.blocks.mem_blacklist] using hholds

/-- A source has no match when no listed prefix holds it. -/
theorem longestMatch_eq_none (h : book.Tracks t) (hnone : ∀ p ∈ t.blacklist, ¬ p.holds source) :
    t.longestMatch source = none := by
  obtain ⟨r, henforces, -⟩ := h
  rw [Option.eq_none_iff_forall_ne_some]
  intro p hp
  obtain ⟨hmem, hholds, -⟩ := henforces.blocks.mem_of_longestMatch hp
  exact hnone p (henforces.blocks.mem_blacklist.2 hmem) hholds

/-- Tables that are tracked by a book on the way are between the old and the wanted ones. -/
theorem between (h : book.Tracks t) (hmid : after.Tracks mid)
    (hblacklist : after.blacklist.Mixes book.blacklist blacklist settled)
    (hrules : after.rateRules.Mixes book.rateRules rules settled') :
    mid.Between t blacklist rules := by
  have hkept : ∀ p ∈ t.blacklist, p ∈ blacklist.items → p ∈ mid.blacklist := by
    intro p hp hnew
    rw [h.blacklist_eq, Roster.mem_items_iff] at hp
    rw [Roster.mem_items_iff] at hnew
    rw [hmid.blacklist_eq, Roster.mem_items_iff]
    rcases hblacklist.find?_eq_or p.rank with heq | heq
    · exact heq.trans hp
    · exact heq.trans hnew
  have hknown : ∀ p ∈ mid.blacklist, p ∈ t.blacklist ∨ p ∈ blacklist.items := by
    intro p hp
    rw [hmid.blacklist_eq, Roster.mem_items_iff] at hp
    rw [h.blacklist_eq, Roster.mem_items_iff, Roster.mem_items_iff]
    rcases hblacklist.find?_eq_or p.rank with heq | heq
    · exact .inl (heq.symm.trans hp)
    · exact .inr (heq.symm.trans hp)
  refine ⟨hkept, hknown, fun hcapacity source hmatched => ?_, fun source hunmatched => ?_,
    fun source => ?_⟩
  · obtain ⟨p, hp, hnew, hholds⟩ := hmatched
    exact hmid.isSome_longestMatch hcapacity ⟨p, hkept p hp hnew, hholds⟩
  · exact hmid.longestMatch_eq_none fun p hp => hunmatched p (hknown p hp)
  · rw [hmid.rule?_eq, h.rule?_eq]
    exact hrules.find?_eq_or source.toNat

end Tracks

/-- The phases of the changes of a register ascend when its items are dropped in one phase and set
in the next one. -/
theorem pairwise_phase_changes {α : Type} [DecidableEq α] {rank : α → Nat} {g : Register rank}
    {n : Nat} (hdrop : ∀ x, (g.drop x).mutation.phase = n)
    (hadd : ∀ x, (g.add x).mutation.phase = n + 1)
    (hrevise : ∀ x, (g.revise x).mutation.phase = n + 1) (old new : Roster α rank) :
    (g.changes old new).Pairwise fun c d => c.mutation.phase ≤ d.mutation.phase := by
  have hall : ∀ c ∈ (old.difference new).added.map g.add ++
      (old.difference new).changed.map g.revise, c.mutation.phase = n + 1 := by
    intro c hc
    rcases List.mem_append.1 hc with hc | hc
    · obtain ⟨x, -, rfl⟩ := List.mem_map.1 hc
      exact hadd x
    · obtain ⟨x, -, rfl⟩ := List.mem_map.1 hc
      exact hrevise x
  rw [Register.changes, List.append_assoc, List.pairwise_append]
  refine ⟨?_, ?_, ?_⟩
  · refine List.pairwise_map.2 (List.pairwise_of_forall fun x y => ?_)
    rw [hdrop, hdrop]
  · refine List.Pairwise.imp_of_mem (fun hc hd _ => ?_) (List.pairwise_of_forall fun _ _ => trivial)
    rw [hall _ hc, hall _ hd]
  · intro c hc d hd
    obtain ⟨x, -, rfl⟩ := List.mem_map.1 hc
    rw [hdrop, hall d hd]
    exact Nat.le_succ n

/-- The parts of the store have their phases one after the other. -/
theorem phase_of_part (change : Change) :
    (change.part = .blacklist → change.mutation.phase ≤ 1) ∧
      (change.part = .rateRules → 2 ≤ change.mutation.phase ∧ change.mutation.phase ≤ 3) := by
  cases change <;> simp [Change.part, Change.mutation, Mutation.part, Mutation.phase]

/-- The phases of a plan ascend. -/
theorem pairwise_phase_plan (book : Book) (clock : UInt64) (config : Config) :
    (book.plan clock config).Pairwise fun c d => c.mutation.phase ≤ d.mutation.phase := by
  have hblacklist : ∀ c ∈ Register.blacklist.changes book.blacklist (book.wantedBlacklist config),
      c.mutation.phase ≤ 1 :=
    fun c hc => (phase_of_part c).1 (Register.part_of_mem_changes hc)
  have hrateRules : ∀ c ∈ Register.rateRules.changes book.rateRules (book.wantedRateRules config),
      2 ≤ c.mutation.phase ∧ c.mutation.phase ≤ 3 :=
    fun c hc => (phase_of_part c).2 (Register.part_of_mem_changes hc)
  rw [plan_eq, List.pairwise_append, List.pairwise_append]
  refine ⟨⟨?_, ?_, ?_⟩, List.pairwise_singleton _ _, ?_⟩
  · exact pairwise_phase_changes (fun _ => rfl) (fun _ => rfl) (fun _ => rfl) _ _
  · exact pairwise_phase_changes (fun _ => rfl) (fun _ => rfl) (fun _ => rfl) _ _
  · intro c hc d hd
    have hle := hblacklist c hc
    have hle' := (hrateRules d hd).1
    omega
  · intro c hc d hd
    rw [List.mem_singleton.1 hd]
    have hstamp : (Change.stamp (nextGeneration clock book.generation)).mutation.phase = 4 := rfl
    rcases List.mem_append.1 hc with hc | hc
    · have hle := hblacklist c hc
      omega
    · have hle := (hrateRules c hc).2
      omega

/-- A change about the rule of a source is about the rules, at the rank of the source. -/
theorem rank_of_source? (h : change.mutation.source? = some source) :
    change.part = .rateRules ∧ change.rank = source.toNat := by
  cases change with
  | unblock p => cases h
  | block p => cases h
  | unlimit rule =>
    cases h
    exact ⟨rfl, rfl⟩
  | limit rule =>
    cases h
    exact ⟨rfl, rfl⟩
  | revise rule =>
    cases h
    exact ⟨rfl, rfl⟩
  | stamp generation => cases h

/-- A plan does not touch the rule of a source that is as wanted. -/
theorem source?_ne_of_mem_plan
    (hsame : book.rateRules.find? source.toNat = (book.wantedRateRules config).find? source.toNat)
    (hmem : change ∈ book.plan clock config) : change.mutation.source? ≠ some source := by
  intro hsource
  obtain ⟨hpart, hrank⟩ := rank_of_source? hsource
  rw [plan_eq, List.mem_append, List.mem_append, List.mem_singleton] at hmem
  rcases hmem with (hmem | hmem) | rfl
  · cases hpart.symm.trans (Register.part_of_mem_changes hmem)
  · have hranks := List.mem_map_of_mem (f := Change.rank) hmem
    rw [Register.map_rank_changes, Roster.mem_ranks_difference, hrank] at hranks
    exact hranks hsame
  · cases hpart

/-- No change before the last one of a plan is about the generation number. -/
theorem plan_eq_append_stamp (book : Book) (clock : UInt64) (config : Config) :
    ∃ changes, book.plan clock config = changes ++ [.stamp (nextGeneration clock book.generation)] ∧
      ∀ change ∈ changes, change.part ≠ .generation := by
  refine ⟨_, plan_eq book clock config, fun change hmem => ?_⟩
  rcases List.mem_append.1 hmem with hmem | hmem
  · rw [Register.part_of_mem_changes hmem]
    nofun
  · rw [Register.part_of_mem_changes hmem]
    nofun

/-- No glitch inside a pass. Let a book track the tables, and let a configuration not be turned
down. After any number of calls, whichever of them failed, the tables are between those before the
pass and the configured blacklist and rules, where a part that is not configured stays as it was; so
a source that is blocked in both has a match at every point, if there is room for fewer than 2^32
prefixes. After the last call the pass is over. No call is about a source whose rule is the
configured one already. The calls come in ascending phases, and the last of them, and no other, sets
the generation number. -/
theorem pass_without_glitch {book : Book} {t : Tables capacity} (h : book.Tracks t)
    (clock : UInt64) (faults : Faults) (config : Config) (report : Report) :
    let f : Faulty (Tables capacity) := { store := t, faults := faults }
    let p := reconcile clock config book f
    let rules := book.wantedRateRules config
    p.result = .ok report →
      (∀ n,
        let mid := carryOut ((book.plan clock config).take n) book f
        mid.1 = p.calls.take n ∧ mid.2.2.store.Between t (book.wantedBlacklist config) rules ∧
          (p.calls.length ≤ n → mid.2.2.store = p.store.store)) ∧
      (∀ source, t.rule? source = rules.find? source.toNat →
        ∀ call ∈ p.calls, call.change.mutation.source? ≠ some source) ∧
      (p.calls.Pairwise fun c d => c.change.mutation.phase ≤ d.change.mutation.phase) ∧
      ∃ calls outcome,
        p.calls = calls ++ [⟨.stamp (nextGeneration clock book.generation), outcome⟩] ∧
          ∀ call ∈ calls, call.change.part ≠ .generation := by
  intro f p rules hok
  obtain ⟨hcalls, hstore⟩ := reconcile_eq_carryOut hok
  have hplan : p.calls.map Call.change = book.plan clock config := (tells_reconcile hok).calls
  refine ⟨fun n => ?_, fun source hsame call hcall => ?_, ?_, ?_⟩
  · intro mid
    have hfirst : mid.1 = p.calls.take n :=
      (carryOut_take _ book f n).trans (congrArg _ hcalls.symm)
    have htracks : mid.2.1.Tracks mid.2.2.store := Tracks.carryOut_faulty h _
    have hbook : mid.2.1 = book.hearAll mid.1 := book_carryOut _ book f
    obtain ⟨xs, ys, zs, hparts, hxs, hys, -⟩ := exists_parts hplan
    obtain ⟨k, m, hparts'⟩ := hparts.take n
    obtain ⟨hblacklist, hrules⟩ := hearAll_mixes hparts'
      (fun call hcall => hxs ▸ List.mem_map_of_mem (List.mem_of_mem_take hcall))
      (fun call hcall => hys ▸ List.mem_map_of_mem (List.mem_of_mem_take hcall))
    rw [← hfirst, ← hbook] at hblacklist hrules
    refine ⟨hfirst, h.between htracks hblacklist hrules, fun hlength => ?_⟩
    have hall : (book.plan clock config).take n = book.plan clock config := by
      rw [← hplan, List.take_of_length_le]
      rwa [List.length_map]
    have hlast : mid.2.2 = p.store :=
      (congrArg (fun changes => (carryOut changes book f).2.2) hall).trans hstore.symm
    exact congrArg Faulty.store hlast
  · rw [h.rule?_eq] at hsame
    exact source?_ne_of_mem_plan hsame (hplan ▸ List.mem_map_of_mem hcall)
  · have hphases := pairwise_phase_plan book clock config
    rw [← hplan, List.pairwise_map] at hphases
    exact hphases
  · obtain ⟨changes, hchanges, hother⟩ := plan_eq_append_stamp book clock config
    rw [hchanges] at hplan
    obtain ⟨calls, last, hsplit, hfirst, hlast⟩ := List.map_eq_append_iff.1 hplan
    obtain ⟨⟨change, outcome⟩, rfl, rfl⟩ := List.map_eq_singleton_iff.1 hlast
    refine ⟨calls, outcome, hsplit, fun call hcall => ?_⟩
    exact hother _ (hfirst ▸ List.mem_map_of_mem hcall)

/-- A removal fails and so there is no room for a new prefix. After these two calls the tables are
still between the old ones and the configured ones, the prefix that stays is found, the last point
is the end of the pass, and the rule that stays is not touched. -/
theorem pass_without_glitch_when_refused :
    let s := (runAll Service.move [.pass 1 (fun _ _ => none)
      "interface=e\nip_blacklist=1.1.1.1,2.2.2.2\nip_rate_limits=3.3.3.3:5,4.4.4.4:6"]
      { store := (Tables.empty : Tables 2) }).2
    let config :=
      Config.parse "interface=e\nip_blacklist=2.2.2.2,5.5.5.5\nip_rate_limits=3.3.3.3:7,4.4.4.4:6"
    let faults : Faults := fun n _ => if n = 0 then some (.failed .blacklist "busy") else none
    let f : Faulty (Tables 2) := { store := s.store, faults := faults }
    let p := reconcile 2 config s.book f
    let mid := fun n => (carryOut ((s.book.plan 2 config).take n) s.book f).2.2.store
    p.result = .ok ⟨"e", false, some ⟨0, 0, 0, 2⟩, some ⟨0, 0, 1, 0⟩, [], some 2⟩ ∧
      (mid 2).Between s.store (s.book.wantedBlacklist config) (s.book.wantedRateRules config) ∧
      2 < 2 ^ 32 ∧ ((mid 2).longestMatch (Address.ofOctets 2 2 2 2)).isSome ∧
      mid 4 = p.store.store ∧
      (s.store.rule? (Address.ofOctets 4 4 4 4)).isSome ∧
      ∀ call ∈ p.calls, call.change.mutation.source? ≠ some (Address.ofOctets 4 4 4 4) := by
  intro s config faults f p mid
  have htracks : s.book.Tracks s.store := Service.tracks_run 2 _
  have hok : p.result = .ok ⟨"e", false, some ⟨0, 0, 0, 2⟩, some ⟨0, 0, 1, 0⟩, [], some 2⟩ := by
    unfold p f faults config s
    rfl
  have hlength : p.calls.length = 4 := by
    unfold p f faults config s
    rfl
  have hsame : s.store.rule? (Address.ofOctets 4 4 4 4) =
      (s.book.wantedRateRules config).find? (Address.ofOctets 4 4 4 4).toNat := by
    unfold config s
    rfl
  have hsome : (s.store.rule? (Address.ofOctets 4 4 4 4)).isSome := by
    unfold s
    rfl
  obtain ⟨hpoints, huntouched, -, -⟩ := pass_without_glitch htracks 2 faults config _ hok
  obtain ⟨-, hbetween, -⟩ := hpoints 2
  obtain ⟨-, -, hlast⟩ := hpoints 4
  have hcapacity : 2 < 2 ^ 32 := by decide
  have hkept : ∃ p ∈ s.store.blacklist, p ∈ (s.book.wantedBlacklist config).items ∧
      p.holds (Address.ofOctets 2 2 2 2) := by
    refine ⟨Prefix.host (Address.ofOctets 2 2 2 2), ?_, ?_, rfl⟩
    · rw [htracks.blacklist_eq]
      unfold s
      decide +kernel
    · unfold config s
      decide +kernel
  exact ⟨hok, hbetween, hcapacity, hbetween.matched hcapacity _ hkept,
    hlast (Nat.le_of_eq hlength), hsome, huntouched _ hsame⟩

end Book

end SourceFilter
