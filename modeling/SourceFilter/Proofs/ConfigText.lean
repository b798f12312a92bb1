import SourceFilter.Config.Parse
import SourceFilter.Proofs.Roster
import SourceFilter.Proofs.Text

/-!
# What a configuration text means

A configuration text is a list of settings: one for each line that is no comment and has a known key
before its first equals sign. The last setting of a key counts, and a list says as much as its valid
entries do; only the warnings are those of all lists. So lines that set nothing and entries that
cannot be read change nothing else, wherever they stand.
-/

namespace SourceFilter

/-- What is wrong with an entry that could not be read. -/
def EntryFault.of? {α : Type} : Except EntryFault α → Option EntryFault
  | .ok _ => none
  | .error fault => some fault

namespace Config

/-- The keys that mean something. -/
inductive Key where
  | interface
  | blacklist
  | rateRules
  deriving DecidableEq, Repr

namespace Key

/-- The key that is written so. -/
def ofChars? (s : List Char) : Option Key :=
  if s = "interface".toList then some .interface
  else if s = "ip_blacklist".toList then some .blacklist
  else if s = "ip_rate_limits".toList then some .rateRules
  else none

/-- What is wrong with an entry of a list, if anything is. An interface is no list. -/
def fault? : Key → List Char → Option EntryFault
  | .interface, _ => none
  | .blacklist, token => EntryFault.of? (Prefix.parse token)
  | .rateRules, token => EntryFault.of? (RateRule.parse token)

/-- The line that sets a key to a value. -/
def line : Key → List Char → Line
  | .interface, value => .interface value
  | .blacklist, value => .blacklist value
  | .rateRules, value => .rateRules value

end Key

/-- The key and the value that a line sets. A line is ignored if it is blank, starts as a comment,
has no equals sign, or has no known key before the first one. -/
def setting? (line : List Char) : Option (Key × List Char) :=
  let text := Text.trim line
  if text = [] ∨ text.head? = some '#' then none
  else
    match Text.splitOnce '=' text with
    | none => none
    | some (key, value) => (Key.ofChars? (Text.trim key)).map fun key => (key, Text.trim value)

/-- What the lines of a text set, in order. -/
def settings (text : List Char) : List (Key × List Char) := (Text.lines text).filterMap setting?

/-- The values that a key is set to. -/
def valuesOf (key : Key) (settings : List (Key × List Char)) : List (List Char) :=
  (settings.filter fun s => s.1 = key).map Prod.snd

/-- One warning for each entry of a list that cannot be read, with the entry. -/
def warningsOf (s : Key × List Char) : List Warning :=
  (listTokens s.2).filterMap fun token =>
    (s.1.fault? token).map fun fault => ⟨fault, String.ofList token⟩

/-- What settings say together. -/
def said (settings : List (Key × List Char)) : Config where
  interface := (valuesOf .interface settings).getLast?.bind fun name =>
    if name.isEmpty then none else some (String.ofList name)
  blacklist := (valuesOf .blacklist settings).getLast?.map fun list => (readBlacklist list).1
  rateRules := (valuesOf .rateRules settings).getLast?.map fun list => (readRateRules list).1
  warnings := settings.flatMap warningsOf

/-- A list has its valid entries, and a warning for each other one. -/
theorem readEntries_eq {α : Type} (parse : List Char → Except EntryFault α) (list : List Char) :
    readEntries parse list =
      ((listTokens list).filterMap fun token => (parse token).toOption,
        (listTokens list).filterMap fun token =>
          (EntryFault.of? (parse token)).map fun fault => ⟨fault, String.ofList token⟩) := by
  rw [readEntries]
  induction listTokens list with
  | nil => rfl
  | cons token tokens ih =>
    rw [List.foldr_cons, ih, List.filterMap_cons, List.filterMap_cons]
    cases parse token with
    | ok entry => rfl
    | error fault => rfl

/-- The entries of a list are the valid ones. -/
theorem readEntries_fst {α : Type} (parse : List Char → Except EntryFault α) (list : List Char) :
    (readEntries parse list).1 = (listTokens list).filterMap fun token => (parse token).toOption :=
  congrArg Prod.fst (readEntries_eq parse list)

/-- Taking in a line is taking in what it sets. -/
theorem absorb_read (config : Config) (line : List Char) :
    config.absorb (Line.read line) =
      ((setting? line).map fun s => config.absorb (s.1.line s.2)).getD config := by
  have hsilent : ((Text.trim line).isEmpty || (Text.trim line).head? == some '#') = true ↔
      Text.trim line = [] ∨ (Text.trim line).head? = some '#' := by
    rw [Bool.or_eq_true, List.isEmpty_iff, beq_iff_eq]
  rw [Line.read, setting?]
  simp only [hsilent]
  split
  next => rfl
  next =>
    cases Text.splitOnce '=' (Text.trim line) with
    | none => rfl
    | some pair =>
      obtain ⟨key, value⟩ := pair
      dsimp only
      rw [Key.ofChars?]
      by_cases hinterface : Text.trim key = "interface".toList
      · rw [if_pos hinterface, if_pos hinterface]
        rfl
      · rw [if_neg hinterface, if_neg hinterface]
        by_cases hblacklist : Text.trim key = "ip_blacklist".toList
        · rw [if_pos hblacklist, if_pos hblacklist]
          rfl
        · rw [if_neg hblacklist, if_neg hblacklist]
          by_cases hrateRules : Text.trim key = "ip_rate_limits".toList
          · rw [if_pos hrateRules, if_pos hrateRules]
            rfl
          · rw [if_neg hrateRules, if_neg hrateRules]
            rfl

/-- The values of a key after one more setting. -/
theorem valuesOf_concat (key : Key) (settings : List (Key × List Char)) (s : Key × List Char) :
    valuesOf key (settings ++ [s]) =
      if s.1 = key then valuesOf key settings ++ [s.2] else valuesOf key settings := by
  rw [valuesOf, List.filter_append, List.map_append, List.filter_singleton]
  split
  next h => simp [h, valuesOf]
  next h => simp [h, valuesOf]

/-- The list that was set last counts. -/
theorem getLast?_valuesOf_concat (key : Key) (settings : List (Key × List Char))
    (s : Key × List Char) :
    (valuesOf key (settings ++ [s])).getLast? =
      if s.1 = key then some s.2 else (valuesOf key settings).getLast? := by
  rw [valuesOf_concat]
  split
  next => exact List.getLast?_concat
  next => rfl

/-- One more setting is taken in. -/
theorem said_concat (settings : List (Key × List Char)) (s : Key × List Char) :
    said (settings ++ [s]) = (said settings).absorb (s.1.line s.2) := by
  obtain ⟨key, value⟩ := s
  have hwarnings : (settings ++ [(key, value)]).flatMap warningsOf =
      settings.flatMap warningsOf ++ warningsOf (key, value) := by
    rw [List.flatMap_append, List.flatMap_singleton]
  cases key with
  | interface =>
    have hnone : warningsOf (.interface, value) = [] := List.filterMap_eq_nil_iff.2 fun _ _ => rfl
    rw [hnone, List.append_nil] at hwarnings
    simp only [said, getLast?_valuesOf_concat, hwarnings, Key.line, absorb]
    rfl
  | blacklist =>
    have hall : (readBlacklist value).2 = warningsOf (.blacklist, value) :=
      congrArg Prod.snd (readEntries_eq Prefix.parse value)
    simp only [said, getLast?_valuesOf_concat, hwarnings, Key.line, absorb, hall]
    rfl
  | rateRules =>
    have hall : (readRateRules value).2 = warningsOf (.rateRules, value) :=
      congrArg Prod.snd (readEntries_eq RateRule.parse value)
    simp only [said, getLast?_valuesOf_concat, hwarnings, Key.line, absorb, hall]
    rfl

/-- A text says what its settings say. -/
theorem parse_eq_said (raw : String) : parse raw = said (settings raw.toList) := by
  have hlines (lines : List (List Char)) :
      (lines.map Line.read).foldl absorb {} = said (lines.filterMap setting?) := by
    -- from the right, as the last line is taken in last
    induction lines using List.reverseRecOn with
    | nil => rfl
    | append_singleton lines line ih =>
      rw [List.map_append, List.map_singleton, List.foldl_append, ih, List.filterMap_append,
        List.foldl_cons, List.foldl_nil, absorb_read]
      cases hline : setting? line with
      | none => simp [hline]
      | some s => simp [hline, said_concat]
  exact hlines _

section Texts

variable {front back line : List Char}

/-- The pieces between line feeds set what the lines set. -/
theorem settings_eq (text : List Char) :
    settings text = (Text.split '\n' text).filterMap setting? := by
  have htrim (line : List Char) : setting? (Text.dropReturn line) = setting? line := by
    rw [setting?, setting?, Text.trim_dropReturn]
  exact Text.filterMap_lines htrim rfl text

/-- Two texts with a line feed between them set what both set. -/
theorem settings_append (front back : List Char) :
    settings (front ++ '\n' :: back) = settings front ++ settings back := by
  rw [settings_eq, settings_eq, settings_eq, Text.split_append, List.filterMap_append]

/-- An ignored line sets nothing. -/
theorem settings_of_ignored (hline : '\n' ∉ line) (hignored : setting? line = none) :
    settings line = [] := by
  rw [settings_eq, Text.split_of_notMem hline, List.filterMap_cons_none hignored,
    List.filterMap_nil]

/-- A text with one more ignored line sets the same. -/
theorem settings_insert (hfront : front = [] ∨ front.getLast? = some '\n') (hline : '\n' ∉ line)
    (hignored : setting? line = none) (back : List Char) :
    settings (front ++ line ++ '\n' :: back) = settings (front ++ back) := by
  have hback : settings (line ++ '\n' :: back) = settings back := by
    rw [settings_append, settings_of_ignored hline hignored, List.nil_append]
  rw [List.append_assoc]
  rcases hfront with rfl | hfront
  · exact hback
  · obtain ⟨first, rfl⟩ := List.getLast?_eq_some_iff.1 hfront
    rw [List.append_assoc, List.append_assoc, List.singleton_append, List.singleton_append,
      settings_append first, hback, ← settings_append]

end Texts

section Replacement

variable {key other : Key} {before after : List (Key × List Char)} {list list' : List Char}

/-- What another key is set to does not matter. -/
theorem valuesOf_replace_of_ne (h : other ≠ key) :
    valuesOf key (before ++ (other, list) :: after) =
      valuesOf key (before ++ (other, list') :: after) := by
  simp only [valuesOf, List.filter_append, List.filter_cons, h, decide_false, Bool.false_eq_true,
    if_false]

/-- A reading that does not tell two values apart does not tell which of them was last. -/
theorem map_getLast?_replace {β : Type} {f : List Char → β} (h : f list = f list') :
    (valuesOf key (before ++ (key, list) :: after)).getLast?.map f =
      (valuesOf key (before ++ (key, list') :: after)).getLast?.map f := by
  simp only [← List.getLast?_map, valuesOf, List.filter_append, List.filter_cons, decide_true,
    if_true, List.map_append, List.map_cons, h]

/-- An entry that cannot be read is no entry. -/
theorem readEntries_insert {α : Type} {parse : List Char → Except EntryFault α}
    {tokens tokens' : List (List Char)} {token : List Char}
    (hlist : listTokens list = tokens ++ tokens')
    (hlist' : listTokens list' = tokens ++ token :: tokens')
    (hfault : (EntryFault.of? (parse token)).isSome) :
    (readEntries parse list).1 = (readEntries parse list').1 := by
  have hnone : (parse token).toOption = none := by
    cases hparse : parse token with
    | ok entry => simp [hparse, EntryFault.of?] at hfault
    | error fault => rfl
  rw [readEntries_fst, readEntries_fst, hlist, hlist', List.filterMap_append, List.filterMap_append,
    List.filterMap_cons, hnone]

/-- An entry more that cannot be read changes only the warnings. -/
theorem said_insert {tokens tokens' : List (List Char)} {token : List Char}
    (hlist : listTokens list = tokens ++ tokens')
    (hlist' : listTokens list' = tokens ++ token :: tokens')
    (hfault : (key.fault? token).isSome) :
    let config := said (before ++ (key, list) :: after)
    let config' := said (before ++ (key, list') :: after)
    config.interface = config'.interface ∧ config.blacklist = config'.blacklist ∧
      config.rateRules = config'.rateRules := by
  cases key with
  | interface => cases hfault
  | blacklist =>
    have hsame : (readBlacklist list).1 = (readBlacklist list').1 :=
      congrArg Roster.ofList (readEntries_insert hlist hlist' hfault)
    have hother (key : Key) (hne : Key.blacklist ≠ key) :
        valuesOf key (before ++ (.blacklist, list) :: after) =
          valuesOf key (before ++ (.blacklist, list') :: after) := valuesOf_replace_of_ne hne
    simp only [said, hother .interface (by decide), hother .rateRules (by decide)]
    exact ⟨trivial, map_getLast?_replace hsame, trivial⟩
  | rateRules =>
    have hsame : (readRateRules list).1 = (readRateRules list').1 :=
      congrArg Roster.ofList (readEntries_insert hlist hlist' hfault)
    have hother (key : Key) (hne : Key.rateRules ≠ key) :
        valuesOf key (before ++ (.rateRules, list) :: after) =
          valuesOf key (before ++ (.rateRules, list') :: after) := valuesOf_replace_of_ne hne
    simp only [said, hother .interface (by decide), hother .blacklist (by decide)]
    exact ⟨trivial, trivial, map_getLast?_replace hsame⟩

end Replacement

/-- An entry is valid when it is read. -/
theorem toOption_eq_some_iff {α : Type} {outcome : Except EntryFault α} {entry : α} :
    outcome.toOption = some entry ↔ outcome = .ok entry := by
  cases outcome with
  | ok other => simp [Except.toOption]
  | error fault => simp [Except.toOption]

/-- The prefixes of a list are those of its valid entries. -/
theorem mem_readBlacklist {list : List Char} {p : Prefix} :
    p ∈ (readBlacklist list).1.items ↔ ∃ token ∈ listTokens list, Prefix.parse token = .ok p := by
  have hitems : (readBlacklist list).1 = Roster.ofList (readEntries Prefix.parse list).1 := rfl
  rw [hitems, Roster.mem_ofList_of_injective fun _ _ => Prefix.rank_injective, readEntries_fst,
    List.mem_filterMap]
  simp only [toOption_eq_some_iff]

/-- The rule of a source is that of the last valid entry that names it. -/
theorem mem_readRateRules {list : List Char} {rule : RateRule} :
    rule ∈ (readRateRules list).1.items ↔
      ∃ before token after, listTokens list = before ++ token :: after ∧
        RateRule.parse token = .ok rule ∧
        ∀ other ∈ after, ∀ r, RateRule.parse other = .ok r → r.source ≠ rule.source := by
  have hitems : (readRateRules list).1 = Roster.ofList (readEntries RateRule.parse list).1 := rfl
  have hsource (r : RateRule) : r.rank = rule.rank ↔ r.source = rule.source :=
    BitVec.toNat_inj
  rw [hitems, Roster.mem_ofList, readEntries_fst]
  constructor
  · rintro ⟨before, after, hentries, hlater⟩
    obtain ⟨tokens, rest, htokens, -, hrest⟩ := List.filterMap_eq_append_iff.1 hentries
    obtain ⟨skipped, token, tokens', hrest', -, htoken, htokens'⟩ :=
      List.filterMap_eq_cons_iff.1 hrest
    refine ⟨tokens ++ skipped, token, tokens', ?_, toOption_eq_some_iff.1 htoken, ?_⟩
    · rw [htokens, hrest', List.append_assoc]
    · intro other hother r hr
      have hmem : r ∈ after := by
        rw [← htokens', List.mem_filterMap]
        exact ⟨other, hother, toOption_eq_some_iff.2 hr⟩
      exact mt (hsource r).2 (hlater r hmem)
  · rintro ⟨before, token, after, htokens, htoken, hlater⟩
    let read (token : List Char) : Option RateRule := (RateRule.parse token).toOption
    refine ⟨before.filterMap read, after.filterMap read, ?_, fun r hr => ?_⟩
    · rw [htokens, List.filterMap_append, List.filterMap_cons, toOption_eq_some_iff.2 htoken]
    · obtain ⟨other, hother, hread⟩ := List.mem_filterMap.1 hr
      exact mt (hsource r).1 (hlater other hother r (toOption_eq_some_iff.1 hread))

/-- The interface is the last one that was set, if this has a name. -/
theorem said_interface {settings : List (Key × List Char)} {name : String} :
    (said settings).interface = some name ↔
      (valuesOf .interface settings).getLast? = some name.toList ∧ name ≠ "" := by
  have hempty (last : List Char) : String.ofList last = "" ↔ last.isEmpty := by
    rw [List.isEmpty_iff, ← String.toList_inj, String.toList_ofList]
    rfl
  rw [said]
  cases (valuesOf .interface settings).getLast? with
  | none => simp
  | some last =>
    rw [Option.bind_some, Option.some.injEq]
    constructor
    · intro h
      split at h
      next => cases h
      next hname =>
        cases h
        exact ⟨String.toList_ofList.symm, mt (hempty last).1 hname⟩
    · rintro ⟨rfl, hname⟩
      have hsome : ¬ name.toList.isEmpty := by
        rwa [← hempty, String.ofList_toList]
      rw [if_neg hsome, String.ofList_toList]

/-- Without a value, a key says nothing, and otherwise the last value counts. -/
theorem said_lists (settings : List (Key × List Char)) :
    ((said settings).blacklist = none ↔ valuesOf .blacklist settings = []) ∧
      ((said settings).rateRules = none ↔ valuesOf .rateRules settings = []) := by
  simp only [said, Option.map_eq_none_iff, List.getLast?_eq_none_iff]
  exact ⟨trivial, trivial⟩

/-- A configuration text means what its settings say. The interface is the last one that is set,
unless its name is empty. A key of a list that is not set says nothing; otherwise its last list
alone counts, with the prefixes of the valid entries, or for each source the rule of the last valid
entry that names it. The warnings are one for each entry that cannot be read, in the order of the
text, also in lists that do not count. So one more ignored line, at the start of a line or behind
the text, changes nothing at all; and one more entry that cannot be read, anywhere in any list,
changes neither the interface nor the prefixes nor the rules. -/
theorem parse_means_settings (raw : String) :
    let config : Config := parse raw
    let set := settings raw.toList
    (∀ name : String, config.interface = some name ↔
      (valuesOf .interface set).getLast? = some name.toList ∧ name ≠ "") ∧
    (config.blacklist = none ↔ valuesOf .blacklist set = []) ∧
    (∀ list, (valuesOf .blacklist set).getLast? = some list →
      ∃ prefixes, config.blacklist = some prefixes ∧
        ∀ p, p ∈ prefixes.items ↔ ∃ token ∈ listTokens list, Prefix.parse token = .ok p) ∧
    (config.rateRules = none ↔ valuesOf .rateRules set = []) ∧
    (∀ list, (valuesOf .rateRules set).getLast? = some list →
      ∃ rules, config.rateRules = some rules ∧
        ∀ rule, rule ∈ rules.items ↔
          ∃ before token after, listTokens list = before ++ token :: after ∧
            RateRule.parse token = .ok rule ∧
            ∀ other ∈ after, ∀ r, RateRule.parse other = .ok r → r.source ≠ rule.source) ∧
    config.warnings = set.flatMap warningsOf ∧
    (∀ front back line, raw.toList = front ++ back → front = [] ∨ front.getLast? = some '\n' →
      '\n' ∉ line → setting? line = none →
      parse (String.ofList (front ++ line ++ '\n' :: back)) = config) ∧
    (∀ line, '\n' ∉ line → setting? line = none →
      parse (String.ofList (raw.toList ++ '\n' :: line)) = config) ∧
    (∀ raw' above below line line' key list list' before token after,
      Text.lines raw.toList = above ++ line :: below →
      Text.lines raw'.toList = above ++ line' :: below →
      setting? line = some (key, list) → setting? line' = some (key, list') →
      listTokens list = before ++ after → listTokens list' = before ++ token :: after →
      (key.fault? token).isSome →
      let config' := parse raw'
      config.interface = config'.interface ∧ config.blacklist = config'.blacklist ∧
        config.rateRules = config'.rateRules) := by
  intro config set
  have hconfig : config = said set := parse_eq_said raw
  have hsame (text : List Char) (htext : settings text = set) :
      parse (String.ofList text) = config := by
    rw [parse_eq_said, String.toList_ofList, htext, hconfig]
  obtain ⟨hblacklist, hrateRules⟩ := said_lists set
  rw [← hconfig] at hblacklist hrateRules
  refine ⟨fun name => ?_, hblacklist, fun list hlist => ?_, hrateRules, fun list hlist => ?_, ?_,
    ?_, ?_, ?_⟩
  · rw [hconfig]
    exact said_interface
  · refine ⟨(readBlacklist list).1, ?_, fun p => mem_readBlacklist⟩
    rw [hconfig, said, hlist, Option.map_some]
  · refine ⟨(readRateRules list).1, ?_, fun rule => mem_readRateRules⟩
    rw [hconfig, said, hlist, Option.map_some]
  · rw [hconfig, said]
  · intro front back line hraw hfront hline hignored
    refine hsame _ ?_
    rw [settings_insert hfront hline hignored, ← hraw]
  · intro line hline hignored
    refine hsame _ ?_
    rw [settings_append, settings_of_ignored hline hignored, List.append_nil]
  · intro raw' above below line line' key list list' before token after hlines hlines' hset hset'
      hlist hlist' hfault config'
    have hsettings : set = above.filterMap setting? ++ (key, list) :: below.filterMap setting? := by
      unfold set settings
      rw [hlines, List.filterMap_append, List.filterMap_cons_some hset]
    have hsettings' : settings raw'.toList =
        above.filterMap setting? ++ (key, list') :: below.filterMap setting? := by
      rw [settings, hlines', List.filterMap_append, List.filterMap_cons_some hset']
    have hconfig' : config' = said (settings raw'.toList) := parse_eq_said raw'
    rw [hconfig, hconfig', hsettings, hsettings']
    exact said_insert hlist hlist' hfault

/-- Of two interfaces the second one counts, and of two rates of a source the one of the last valid
entry. A comment in front changes nothing. -/
theorem parse_repeated_settings :
    let raw :=
      "interface=e0\r\nip_rate_limits=9:1\ninterface = e1\nip_rate_limits=2.2.2.2:1,2.2.2.2:7,x"
    let config : Config := parse raw
    config.interface = some "e1" ∧ config.blacklist = none ∧
      (∃ rules, config.rateRules = some rules ∧
        ⟨Address.ofOctets 2 2 2 2, 7, by decide⟩ ∈ rules.items) ∧
      config.warnings = [⟨.invalidAddress, "9:1"⟩, ⟨.malformedRule, "x"⟩] ∧
      parse (String.ofList ("# note".toList ++ '\n' :: raw.toList)) = config := by
  intro raw config
  have hset : settings raw.toList = [(.interface, "e0".toList), (.rateRules, "9:1".toList),
      (.interface, "e1".toList), (.rateRules, "2.2.2.2:1,2.2.2.2:7,x".toList)] := by
    unfold raw
    decide +kernel
  obtain ⟨hinterface, hblacklist, -, -, hrateRules, hwarnings, hinsert, -, -⟩ :=
    parse_means_settings raw
  rw [hset] at hinterface hblacklist hrateRules hwarnings
  obtain ⟨rules, hrules, hmem⟩ := hrateRules _ rfl
  have hcomment : setting? "# note".toList = none := by rfl
  refine ⟨(hinterface "e1").2 ⟨rfl, by decide⟩, hblacklist.2 rfl, ⟨rules, hrules, (hmem _).2 ?_⟩,
    hwarnings.trans (by decide +kernel), ?_⟩
  · have htokens : listTokens "2.2.2.2:1,2.2.2.2:7,x".toList =
        ["2.2.2.2:1".toList] ++ "2.2.2.2:7".toList :: ["x".toList] := by decide +kernel
    refine ⟨_, _, _, htokens, by rfl, fun other hother r hr => ?_⟩
    rw [List.mem_singleton.1 hother] at hr
    cases hr
  · exact hinsert [] raw.toList "# note".toList rfl (.inl rfl) (by decide) hcomment

end Config
end SourceFilter
