import SourceFilter.Proofs.Bookkeeping
import SourceFilter.Proofs.Session

/-!
# The book as a snapshot of the tables

Whatever calls of its passes fail, and whatever packets are judged in between, the book of a service
lists exactly what is live in its tables, as long as nobody else writes to them. A call that fails
leaves the tables and the book as they were, and a part that a configuration does not mention is the
same before and after the pass.
-/

namespace SourceFilter

namespace Tables

variable {capacity : Nat} {t : Tables capacity} {r : Ruleset capacity} {m : Mutation}

/-- The gate does not depend on the counts, and changes only the times of admitted packets. -/
theorem admission_eq (t : Tables capacity) (tallies : SlotTable capacity Tally) (source : Address)
    (now : UInt64) :
    admission { t with tallies := tallies } source now =
      ((t.admission source now).1,
        { t with stamps := (t.admission source now).2.stamps, tallies := tallies }) := by
  have hinterval : interval? { t with tallies := tallies } source = t.interval? source := rfl
  unfold admission
  rw [hinterval]
  cases t.interval? source with
  | none => rfl
  | some interval => rfl

/-- A packet is dropped when the gate rejects it or its source has a match. Judging it makes a
record for the source, if there is room, and counts the verdict; besides, the gate may note its
time. -/
theorem classify_eq (t : Tables capacity) (source : Address) (now : UInt64) :
    let judged := t.classify source now
    judged.1 =
      (if (t.admission source now).1 = .rejected then .drop
        else if (t.longestMatch source).isSome then .drop
        else .pass) ∧
      judged.2 =
        { t with
          stamps := (t.admission source now).2.stamps
          tallies := (t.tallies.claim source.toNat id).2.modify source.toNat (Tally.count judged.1)
          totals := t.totals.count judged.1 } := by
  simp only [classify, admission_eq]
  exact ⟨rfl, rfl⟩

/-- A packet that passes was admitted. -/
theorem admission_of_pass {source : Address} {now : UInt64}
    (h : (t.classify source now).1 = .pass) : (t.admission source now).1 = .admitted := by
  rw [(t.classify_eq source now).1] at h
  cases hanswer : (t.admission source now).1 with
  | admitted => rfl
  | rejected =>
    rw [if_pos hanswer] at h
    cases h

/-- What is enforced does not change when a packet is judged. -/
theorem Enforces.classify (h : t.Enforces r) (source : Address) (now : UInt64) :
    (t.classify source now).2.Enforces r := by
  obtain ⟨-, heq⟩ := t.classify_eq source now
  rw [heq]
  exact h.with_records _ _ _

/-- A mutation changes what is blocked, the rates or the generation number, each only when the
mutation is about it. -/
theorem perform_cases (m : Mutation) (t : Tables capacity) :
    (m.part = .blacklist ∧ ∃ blocked counts lengths, (Store.perform m t).2 =
      { t with blocked := blocked, lengthCounts := counts, lengths := lengths }) ∨
    (m.part = .rateRules ∧ ∃ rates, (Store.perform m t).2 = { t with rates := rates }) ∨
    (m.part = .generation ∧ ∃ generation,
      (Store.perform m t).2 = { t with generation := generation }) := by
  cases m with
  | block p =>
    refine .inl ⟨rfl, ?_⟩
    simp only [Store.perform, block]
    split
    · exact ⟨_, _, _, rfl⟩
    · split <;> exact ⟨_, _, _, rfl⟩
  | unblock p =>
    refine .inl ⟨rfl, ?_⟩
    simp only [Store.perform, unblock]
    split <;> exact ⟨_, _, _, rfl⟩
  | limit rule =>
    refine .inr (.inl ⟨rfl, ?_⟩)
    simp only [Store.perform, limit]
    split <;> exact ⟨_, rfl⟩
  | unlimit source => exact .inr (.inl ⟨rfl, _, rfl⟩)
  | stamp generation => exact .inr (.inr ⟨rfl, _, rfl⟩)

/-- Only mutations of the blacklist change what is blocked. -/
theorem perform_blocked (hm : m.part ≠ .blacklist) (t : Tables capacity) :
    (Store.perform m t).2.blocked = t.blocked ∧
      (Store.perform m t).2.lengthCounts = t.lengthCounts ∧
      (Store.perform m t).2.lengths = t.lengths := by
  rcases t.perform_cases m with ⟨hpart, -⟩ | ⟨-, rates, ht⟩ | ⟨-, generation, ht⟩
  · exact absurd hpart hm
  · rw [ht]
    exact ⟨rfl, rfl, rfl⟩
  · rw [ht]
    exact ⟨rfl, rfl, rfl⟩

/-- Only mutations of the rules change what is limited. -/
theorem perform_rates (hm : m.part ≠ .rateRules) (t : Tables capacity) :
    (Store.perform m t).2.rates = t.rates := by
  rcases t.perform_cases m with ⟨-, blocked, counts, lengths, ht⟩ | ⟨hpart, -⟩ |
    ⟨-, generation, ht⟩
  · rw [ht]
  · exact absurd hpart hm
  · rw [ht]

/-- A mutation does not touch the times of admitted packets and the counts. -/
theorem perform_records (m : Mutation) (t : Tables capacity) :
    (Store.perform m t).2.stamps = t.stamps ∧ (Store.perform m t).2.tallies = t.tallies ∧
      (Store.perform m t).2.totals = t.totals := by
  rcases t.perform_cases m with ⟨-, blocked, counts, lengths, ht⟩ | ⟨-, rates, ht⟩ |
    ⟨-, generation, ht⟩
  all_goals
    rw [ht]
    exact ⟨rfl, rfl, rfl⟩

/-- The tables with all records of packets cleared: what is left is what mutations are about. -/
def withoutRecords (t : Tables capacity) : Tables capacity :=
  { t with stamps := .empty, tallies := .empty, totals := {} }

/-- Mutations neither depend on records of packets nor change them. -/
theorem perform_withoutRecords (m : Mutation) (t : Tables capacity) :
    Store.perform m t.withoutRecords =
      ((Store.perform m t).1, (Store.perform m t).2.withoutRecords) := by
  cases m with
  | block p =>
    simp only [Store.perform, block, withoutRecords]
    by_cases hblocked : t.blocked.contains p.key = true
    · simp only [hblocked, if_true]
    · simp only [hblocked, Bool.false_eq_true, if_false]
      generalize t.blocked.put p.key id = filed
      obtain ⟨placement, slots⟩ := filed
      cases placement <;> rfl
  | unblock p =>
    simp only [Store.perform, unblock, withoutRecords]
    generalize t.blocked.remove p.key = filed
    obtain ⟨found, slots⟩ := filed
    cases found <;> rfl
  | limit r =>
    simp only [Store.perform, limit, withoutRecords]
    generalize (t.rates.put r.source.toNat fun _ => some r.rate) = filed
    obtain ⟨placement, slots⟩ := filed
    cases placement <;> rfl
  | unlimit source => rfl
  | stamp generation => rfl

/-- Packets change nothing but their records. -/
theorem withoutRecords_classify (t : Tables capacity) (source : Address) (now : UInt64) :
    (t.classify source now).2.withoutRecords = t.withoutRecords := by
  obtain ⟨-, heq⟩ := t.classify_eq source now
  rw [heq]
  rfl

/-- Tables answer mutations as without their records. -/
theorem alike_withoutRecords :
    Alike fun (t u : Tables capacity) => t.withoutRecords = u := by
  rintro m t _ rfl
  rw [perform_withoutRecords]
  exact ⟨rfl, rfl⟩

end Tables

namespace Book

variable {capacity : Nat} {book : Book} {t : Tables capacity} {change : Change}

/-- Only changes of the blacklist change the book's blacklist. -/
theorem learn_blacklist (hc : change.part ≠ .blacklist) (book : Book) :
    (book.learn change).blacklist = book.blacklist := by
  cases change with
  | unblock p => exact absurd rfl hc
  | block p => exact absurd rfl hc
  | unlimit rule => rfl
  | limit rule => rfl
  | revise rule => rfl
  | stamp generation => rfl

/-- Only changes of the rules change the book's rules. -/
theorem learn_rateRules (hc : change.part ≠ .rateRules) (book : Book) :
    (book.learn change).rateRules = book.rateRules := by
  cases change with
  | unblock p => rfl
  | block p => rfl
  | unlimit rule => exact absurd rfl hc
  | limit rule => exact absurd rfl hc
  | revise rule => exact absurd rfl hc
  | stamp generation => rfl

/-- The changes that lead to a blacklist are about the blacklist. -/
theorem part_of_mem_blacklistChanges {new : Blacklist} (h : change ∈ book.blacklistChanges new) :
    change.part = .blacklist := by
  rw [blacklistChanges, List.mem_append, List.mem_map, List.mem_map] at h
  rcases h with ⟨p, -, rfl⟩ | ⟨p, -, rfl⟩
  · rfl
  · rfl

/-- The changes that lead to rules are about the rules. -/
theorem part_of_mem_rateRuleChanges {new : RateRules} (h : change ∈ book.rateRuleChanges new) :
    change.part = .rateRules := by
  rw [rateRuleChanges, List.mem_append, List.mem_append, List.mem_map, List.mem_map,
    List.mem_map] at h
  rcases h with (⟨rule, -, rfl⟩ | ⟨rule, -, rfl⟩) | ⟨rule, -, rfl⟩
  · rfl
  · rfl
  · rfl

/-- A planned change is about a part that is configured, or about the generation number. -/
theorem part_of_mem_plan {clock : UInt64} {config : Config}
    (h : change ∈ book.plan clock config) :
    (config.blacklist ≠ none ∧ change.part = .blacklist) ∨
      (config.rateRules ≠ none ∧ change.part = .rateRules) ∨ change.part = .generation := by
  rw [plan, List.mem_append, List.mem_append, List.mem_singleton] at h
  rcases h with (h | h) | rfl
  · cases hblacklist : config.blacklist with
    | none =>
      rw [hblacklist] at h
      cases h
    | some new =>
      rw [hblacklist] at h
      exact .inl ⟨Option.some_ne_none new, part_of_mem_blacklistChanges h⟩
  · cases hrateRules : config.rateRules with
    | none =>
      rw [hrateRules] at h
      cases h
    | some new =>
      rw [hrateRules] at h
      exact .inr (.inl ⟨Option.some_ne_none new, part_of_mem_rateRuleChanges h⟩)
  · exact .inr (.inr rfl)

/-- A configuration without a blacklist plans no changes of it. -/
theorem part_ne_blacklist_of_mem_plan {clock : UInt64} {config : Config}
    (hnone : config.blacklist = none) (hmem : change ∈ book.plan clock config) :
    change.part ≠ .blacklist := by
  intro hpart
  rcases part_of_mem_plan hmem with ⟨hsome, -⟩ | ⟨-, h⟩ | h
  · exact hsome hnone
  · cases hpart.symm.trans h
  · cases hpart.symm.trans h

/-- A configuration without rules plans no changes of them. -/
theorem part_ne_rateRules_of_mem_plan {clock : UInt64} {config : Config}
    (hnone : config.rateRules = none) (hmem : change ∈ book.plan clock config) :
    change.part ≠ .rateRules := by
  intro hpart
  rcases part_of_mem_plan hmem with ⟨-, h⟩ | ⟨hsome, -⟩ | h
  · cases hpart.symm.trans h
  · exact hsome hnone
  · cases hpart.symm.trans h

/-- A pass keeps the blacklist and what is blocked when no change is about them. -/
theorem keeps_blacklist (blacklist : Blacklist) (t : Tables capacity) :
    Keeps (fun change => change.part ≠ .blacklist) fun book (t' : Tables capacity) =>
      book.blacklist = blacklist ∧ t'.blocked = t.blocked ∧ t'.lengthCounts = t.lengthCounts ∧
        t'.lengths = t.lengths := by
  rintro change book t' hchange ⟨hbook, hblocked, hcounts, hlengths⟩
  obtain ⟨hblocked', hcounts', hlengths'⟩ := Tables.perform_blocked hchange t'
  refine ⟨?_, hblocked'.trans hblocked, hcounts'.trans hcounts, hlengths'.trans hlengths⟩
  rw [hear]
  split
  · exact (learn_blacklist hchange book).trans hbook
  · exact hbook

/-- A pass keeps the rules of the book and the rates when no change is about them. -/
theorem keeps_rateRules (rateRules : RateRules) (t : Tables capacity) :
    Keeps (fun change => change.part ≠ .rateRules) fun book (t' : Tables capacity) =>
      book.rateRules = rateRules ∧ t'.rates = t.rates := by
  rintro change book t' hchange ⟨hbook, hrates⟩
  refine ⟨?_, (Tables.perform_rates hchange t').trans hrates⟩
  rw [hear]
  split
  · exact (learn_rateRules hchange book).trans hbook
  · exact hbook

namespace Tracks

/-- A call that fails leaves the tables as they were. -/
theorem perform_of_error (h : book.Tracks t) {e : StoreError}
    (he : (Store.perform change.mutation t).1 = .error e) :
    (Store.perform change.mutation t).2 = t := by
  by_cases ha : book.Admits capacity change
  · obtain ⟨t', hperform, -⟩ := h.perform_of_admits ha
    rw [hperform] at he
    cases he
  · obtain ⟨e', hperform⟩ := h.perform_of_not_admits ha
    rw [hperform]

/-- A call that fails, before it reaches the tables or there, leaves them as they were. -/
theorem perform_faulty_of_error {f : Faulty (Tables capacity)} (h : book.Tracks f.store)
    {e : StoreError} (he : (Store.perform change.mutation f).1 = .error e) :
    (Store.perform change.mutation f).2.store = f.store := by
  cases hfault : f.faults f.calls change.mutation with
  | some e' => rw [Faulty.perform_of_fault hfault]
  | none =>
    rw [Faulty.perform_of_no_fault hfault] at he ⊢
    exact h.perform_of_error he

/-- Every call keeps that the book tracks the tables. -/
theorem keeps : Keeps (fun _ => True) fun book (t : Tables capacity) => book.Tracks t := by
  intro change book t _ h
  by_cases ha : book.Admits capacity change
  · obtain ⟨t', hperform, h'⟩ := h.perform_of_admits ha
    rw [hperform, hear_ok]
    exact h'
  · obtain ⟨e, hperform⟩ := h.perform_of_not_admits ha
    rw [hperform, hear_error]
    exact h

/-- The interface of the book does not matter. -/
theorem bind (h : book.Tracks t) (interface : Option String) :
    { book with interface := interface }.Tracks t := by
  obtain ⟨r, henforces, hmirrors⟩ := h
  exact ⟨r, henforces, hmirrors.blacklist, hmirrors.rateRules⟩

/-- A packet changes nothing that the book tracks. -/
theorem classify (h : book.Tracks t) (source : Address) (now : UInt64) :
    book.Tracks (t.classify source now).2 := by
  obtain ⟨r, henforces, hmirrors⟩ := h
  exact ⟨r, henforces.classify source now, hmirrors⟩

/-- Some changes of a pass keep that the book tracks the tables. -/
theorem carryOut_faulty {f : Faulty (Tables capacity)} (h : book.Tracks f.store)
    (changes : List Change) :
    (carryOut changes book f).2.1.Tracks (carryOut changes book f).2.2.store :=
  carryOut_invariant keeps.faulty (fun _ _ => trivial) h

/-- A pass keeps that the book tracks the tables, whatever calls fail. -/
theorem reconcile_faulty {f : Faulty (Tables capacity)} (h : book.Tracks f.store) (clock : UInt64)
    (config : Config) :
    (reconcile clock config book f).book.Tracks (reconcile clock config book f).store.store :=
  reconcile_invariant keeps.faulty (fun interface _ _ hbook => hbook.bind interface)
    (fun _ _ => trivial) h

end Tracks

end Book

namespace Service

variable {capacity : Nat} {s : Service (Tables capacity)}

/-- A pass keeps that the book tracks the tables. -/
theorem tracks_pass (h : s.book.Tracks s.store) (clock : UInt64) (faults : Faults) (raw : String) :
    (s.pass clock faults raw).book.Tracks (s.pass clock faults raw).store.store :=
  Book.Tracks.reconcile_faulty (f := { store := s.store, faults := faults }) h clock _

/-- A move keeps that the book tracks the tables. -/
theorem tracks_move (h : s.book.Tracks s.store) (m : Move) :
    (move m s).2.book.Tracks (move m s).2.store := by
  cases m with
  | pass clock faults raw => exact tracks_pass h clock faults raw
  | packet source now => exact h.classify source now

/-- The book tracks the tables in every session. -/
theorem tracks_run (capacity : Nat) (moves : List Move) :
    let s := (runAll move moves { store := (Tables.empty : Tables capacity) }).2
    s.book.Tracks s.store :=
  runAll_invariant (P := fun s : Service (Tables capacity) => s.book.Tracks s.store)
    (fun m _ h => tracks_move h m) Book.Tracks.empty moves

/-- The book lists what is live in the tables, and nothing is live twice. -/
structure Mirrored (s : Service (Tables capacity)) : Prop where
  /-- The book's blacklist is that of the tables. -/
  blacklist : s.store.blacklist = s.book.blacklist.items
  /-- The book's rules are those of the tables. -/
  rateRules : s.store.rateRules = s.book.rateRules.items
  /-- The live keys of blocked prefixes are those of the book's prefixes. -/
  blockedKeys : ∀ key, s.store.blocked.contains key ↔ ∃ p ∈ s.book.blacklist.items, p.key = key
  /-- The live keys of rates are the sources of the book's rules. -/
  rateKeys : ∀ key, s.store.rates.contains key ↔
    ∃ rule ∈ s.book.rateRules.items, rule.source.toNat = key
  /-- No key of a blocked prefix is live twice. -/
  blockedOnce : (s.store.blocked.entries.map Prod.fst).Nodup
  /-- No key of a rate is live twice. -/
  ratesOnce : (s.store.rates.entries.map Prod.fst).Nodup

/-- The book lists what is live when it tracks the tables. -/
theorem mirrored_of_tracks (h : s.book.Tracks s.store) : s.Mirrored := by
  obtain ⟨r, henforces, hmirrors⟩ := id h
  refine ⟨h.blacklist_eq, h.rateRules_eq, fun key => ?_, fun key => ?_,
    henforces.blocks.filed.sound.nodup_keys, SlotTable.Sound.nodup_keys henforces.limits.sound⟩
  · rw [henforces.blocks.filed.contains_iff]
    refine exists_congr fun p => ?_
    rw [Finite.isSome_presence, hmirrors.blacklist, and_comm]
  · rw [SlotTable.Files.contains_iff henforces.limits]
    constructor
    · rintro ⟨source, rfl, hsome⟩
      rw [Option.isSome_map, Option.isSome_iff_exists] at hsome
      obtain ⟨rate, hrate⟩ := hsome
      exact ⟨⟨source, rate⟩, (hmirrors.rateRules _).2 hrate, rfl⟩
    · rintro ⟨rule, hrule, rfl⟩
      rw [hmirrors.rateRules] at hrule
      exact ⟨rule.source, rfl, by rw [hrule]; rfl⟩

/-- The book is a snapshot of the tables. In every session, whatever calls of its passes fail, after
every pass the book lists what is live in the tables. A call that fails, whatever changes were tried
before it in the pass, leaves the tables and the book as they were. A part that the configuration
does not mention is the same after the pass, in the tables and in the book. -/
theorem book_mirrors_tables (capacity : Nat) (moves : List Move) (clock : UInt64) (faults : Faults)
    (raw : String) :
    let s := (runAll move moves { store := (Tables.empty : Tables capacity) }).2
    let f : Faulty (Tables capacity) := { store := s.store, faults := faults }
    let p := s.pass clock faults raw
    s.Mirrored ∧
    (⟨p.book, p.store.store⟩ : Service (Tables capacity)).Mirrored ∧
    (∀ changes change e,
      let before := carryOut changes s.book f
      let after := carryOut (changes ++ [change]) s.book f
      after.1 = before.1 ++ [⟨change, .error e⟩] →
        after.2.1 = before.2.1 ∧ after.2.2.store = before.2.2.store) ∧
    ((Config.parse raw).blacklist = none →
      p.book.blacklist = s.book.blacklist ∧ p.store.store.blocked = s.store.blocked ∧
        p.store.store.lengthCounts = s.store.lengthCounts ∧
        p.store.store.lengths = s.store.lengths) ∧
    ((Config.parse raw).rateRules = none →
      p.book.rateRules = s.book.rateRules ∧ p.store.store.rates = s.store.rates) := by
  intro s f p
  have htracks : s.book.Tracks s.store := tracks_run capacity moves
  refine ⟨mirrored_of_tracks htracks, mirrored_of_tracks (tracks_pass htracks clock faults raw),
    ?failed, ?blacklist, ?rateRules⟩
  case failed =>
    intro changes change e before after hfailed
    have hbefore : before.2.1.Tracks before.2.2.store := htracks.carryOut_faulty changes
    have hafter : after = (before.1 ++ [⟨change, (Store.perform change.mutation before.2.2).1⟩],
        before.2.1.hear change (Store.perform change.mutation before.2.2).1,
        (Store.perform change.mutation before.2.2).2) := carryOut_append changes [change] _ _
    rw [hafter, List.append_cancel_left_eq, List.singleton_inj, Call.mk.injEq] at hfailed
    obtain ⟨-, he⟩ := hfailed
    rw [hafter]
    constructor
    · change before.2.1.hear change _ = before.2.1
      rw [he, Book.hear_error]
    · exact hbefore.perform_faulty_of_error he
  case blacklist =>
    intro hnone
    exact reconcile_invariant (Book.keeps_blacklist s.book.blacklist s.store).faulty
      (fun _ _ _ hkept => hkept) (fun _ => Book.part_ne_blacklist_of_mem_plan hnone)
      ⟨rfl, rfl, rfl, rfl⟩
  case rateRules =>
    intro hnone
    exact reconcile_invariant (Book.keeps_rateRules s.book.rateRules s.store).faulty
      (fun _ _ _ hkept => hkept) (fun _ => Book.part_ne_rateRules_of_mem_plan hnone) ⟨rfl, rfl⟩

/-- A prefix more is refused by a full table, which stays as it was, and so do the blacklist and the
rules when a configuration mentions neither. -/
theorem book_mirrors_full_tables :
    let s := (runAll move [.pass 1 (fun _ _ => none) "interface=e\nip_blacklist=9.9.9.9"]
      { store := (Tables.empty : Tables 1) }).2
    let f : Faulty (Tables 1) := { store := s.store, faults := fun _ _ => none }
    let after := carryOut [.block (Prefix.host 1)] s.book f
    let p := s.pass 2 f.faults "interface=e"
    after.1 = [⟨.block (Prefix.host 1), .error (.full .blacklist 1)⟩] ∧
      after.2.2.store = s.store ∧
      (Config.parse "interface=e").blacklist = none ∧ p.store.store.blocked = s.store.blocked ∧
      (Config.parse "interface=e").rateRules = none ∧ p.store.store.rates = s.store.rates := by
  intro s f after p
  have hfailed : after.1 = [⟨.block (Prefix.host 1), .error (.full .blacklist 1)⟩] := by rfl
  have hblacklist : (Config.parse "interface=e").blacklist = none := by rfl
  have hrateRules : (Config.parse "interface=e").rateRules = none := by rfl
  obtain ⟨-, -, hcall, hblocked, hrates⟩ := book_mirrors_tables 1
    [.pass 1 (fun _ _ => none) "interface=e\nip_blacklist=9.9.9.9"] 2 f.faults "interface=e"
  obtain ⟨-, hstore⟩ := hcall [] (.block (Prefix.host 1)) _ hfailed
  exact ⟨hfailed, hstore, hblacklist, (hblocked hblacklist).2.1, hrateRules, (hrates hrateRules).2⟩

end Service

end SourceFilter
