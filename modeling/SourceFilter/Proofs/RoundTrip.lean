import SourceFilter.Proofs.EntryGrammar

/-!
# Texts that were written

What is written for an address, a prefix or a rate rule is read back as this. So is a configuration
that is written as three lines, one for the interface and one for each list: in whatever order the
lines stand, however they end, and whatever blanks surround the entries of the lists.
-/

namespace SourceFilter

open Text

/-- An address is written as its text. -/
theorem Address.written_chars (a : Address) : Address.Written a.chars a := by
  have hlt := a.isLt
  refine ⟨_, _, _, _, a.toNat / 16777216, a.toNat / 65536 % 256, a.toNat / 256 % 256,
    a.toNat % 256, rfl, ⟨numeral_digits _, numeral_digits _, numeral_digits _, numeral_digits _⟩,
    ⟨?_, ?_, ?_, ?_⟩, ?_⟩
  all_goals omega

/-- An address is written with digits and points. -/
theorem Address.isDigit_or_point {a : Address} {c : Char} (h : c ∈ a.chars) :
    c.isDigit = true ∨ c = '.' := by
  by_cases hc : c.isDigit = true
  · exact .inl hc
  · right
    by_contra hpoint
    exact a.written_chars.notMem (Bool.eq_false_iff.2 hc) hpoint h

/-- The text of a prefix is read as the prefix. -/
theorem Prefix.parse_chars (p : Prefix) : Prefix.parse p.chars = .ok p := by
  have hslash : '/' ∉ p.network.chars := p.network.written_chars.notMem (by decide) (by decide)
  have haddress := Address.parse?_eq_some_iff.2 p.network.written_chars
  have hlength := canonical?_eq_some_iff.2 (numeral_digits p.length)
  have hprefix : of? p.network p.length = some p := by
    rw [of?, dif_pos p.length.isLt]
    exact congrArg some (around_network p)
  rw [Prefix.parse, Prefix.chars, splitOnce_append _ hslash]
  simp only [haddress, hlength, Option.bind_some, hprefix]

/-- The text of a rate rule is read as the rule. -/
theorem RateRule.parse_chars (r : RateRule) : RateRule.parse r.chars = .ok r := by
  have hcolon : ':' ∉ r.source.chars := r.source.written_chars.notMem (by decide) (by decide)
  have haddress := Address.parse?_eq_some_iff.2 r.source.written_chars
  have hperSecond := canonical?_eq_some_iff.2 (numeral_digits r.rate.perSecond.toNat)
  have hrate : Rate.of? r.rate.perSecond.toNat = some r.rate := by
    have hpos : 0 < r.rate.perSecond.toNat := UInt32.lt_iff_toNat_lt.1 r.rate.positive
    rw [Rate.of?, dif_pos ⟨hpos, r.rate.perSecond.toNat_lt⟩]
    rfl
  rw [RateRule.parse, RateRule.chars, splitOnce_append _ hcolon]
  simp only [haddress, hperSecond, Option.bind_some, hrate]

namespace Text

/-- A text that may stand in a list: there is something, but no comma and no blank. -/
structure Plain (s : List Char) : Prop where
  /-- There is a character. -/
  nonempty : s ≠ []
  /-- There is no comma. -/
  no_comma : ',' ∉ s
  /-- There is no blank. -/
  no_blank : ∀ c ∈ s, isBlank c = false

/-- A digit is not blank. -/
theorem isBlank_of_isDigit {c : Char} (h : c.isDigit = true) : isBlank c = false := by
  rw [Char.isDigit_iff_toNat] at h
  have hlow : 48 ≤ c.toNat := h.1
  have hhigh : c.toNat ≤ 57 := h.2
  simp [isBlank, blankRanges]
  omega

/-- Digits, points, slashes and colons may stand in a list. -/
theorem plain_of_marks {s : List Char} (hne : s ≠ [])
    (h : ∀ c ∈ s, c.isDigit = true ∨ c ∈ ['.', '/', ':']) : Plain s := by
  have hmark {c : Char} (hc : c ∈ ['.', '/', ':']) : c ≠ ',' ∧ isBlank c = false := by
    simp only [List.mem_cons, List.not_mem_nil, or_false] at hc
    rcases hc with rfl | rfl | rfl
    · decide
    · decide
    · decide
  refine ⟨hne, fun hcomma => ?_, fun c hc => ?_⟩
  · rcases h ',' hcomma with hdigit | hother
    · exact absurd hdigit (by decide)
    · exact (hmark hother).1 rfl
  · rcases h c hc with hdigit | hother
    · exact isBlank_of_isDigit hdigit
    · exact (hmark hother).2

/-- A text with blanks around it, but no line feed. -/
def Padded (s padded : List Char) : Prop :=
  ∃ front back, padded = front ++ s ++ back ∧
    ∀ c ∈ front ++ back, isBlank c = true ∧ c ≠ '\n'

/-- A list of texts: with blanks around each of them and around the list, and commas between
them. -/
def Listed (texts : List (List Char)) (list : List Char) : Prop :=
  ∃ pieces, List.Forall₂ Padded texts pieces ∧ Padded (join ',' pieces) list

/-- The lines of a text, each with its line end. The last one may lack it. -/
inductive Lined : List (List Char) → List Char → Prop
  /-- There is no line. -/
  | nothing : Lined [] []
  /-- The last line ends with the text. -/
  | last (line : List Char) : Lined [line] line
  /-- A line ends with a line feed. -/
  | feed (line : List Char) {lines : List (List Char)} {rest : List Char} (h : Lined lines rest) :
    Lined (line :: lines) (line ++ '\n' :: rest)
  /-- A line ends with a carriage return and a line feed. -/
  | returnFeed (line : List Char) {lines : List (List Char)} {rest : List Char}
    (h : Lined lines rest) : Lined (line :: lines) (line ++ '\r' :: '\n' :: rest)

/-- Only the blanks around a text without blanks are trimmed. -/
theorem Padded.trim_eq {s padded : List Char} (h : Padded s padded) (hs : Plain s) :
    trim padded = s := by
  obtain ⟨front, back, rfl, hblank⟩ := h
  obtain ⟨hfront, hback⟩ := List.forall_mem_append.1 hblank
  rw [trim_append_of_blank (front ++ s) fun c hc => (hback c hc).1,
    trim_prepend_of_blank s fun c hc => (hfront c hc).1, trim_of_no_blank hs.no_blank]

/-- Nothing but a text and blanks lies in the padded text. -/
theorem Padded.notMem {s padded : List Char} (h : Padded s padded) {c : Char}
    (hblank : isBlank c = true → c = '\n') (hs : c ∉ s) : c ∉ padded := by
  obtain ⟨front, back, rfl, hpad⟩ := h
  obtain ⟨hfront, hback⟩ := List.forall_mem_append.1 hpad
  simp only [List.mem_append, not_or]
  refine ⟨⟨fun hmem => ?_, hs⟩, fun hmem => ?_⟩
  · exact (hfront c hmem).2 (hblank (hfront c hmem).1)
  · exact (hback c hmem).2 (hblank (hback c hmem).1)

/-- Blanks around a list do not matter. -/
theorem Padded.listTokens_eq {s padded : List Char} (h : Padded s padded) :
    listTokens padded = listTokens s := by
  obtain ⟨front, back, rfl, hblank⟩ := h
  obtain ⟨hfront, hback⟩ := List.forall_mem_append.1 hblank
  have hcomma : isBlank ',' = false := by decide
  rw [listTokens, listTokens, map_trim_split_append hcomma (front ++ s) fun c hc => (hback c hc).1,
    map_trim_split_prepend hcomma s fun c hc => (hfront c hc).1]

/-- Padded texts have neither commas nor line feeds, and trimming undoes the padding. -/
theorem pieces_of_padded {texts pieces : List (List Char)} (h : List.Forall₂ Padded texts pieces)
    (hplain : ∀ s ∈ texts, Plain s) :
    (∀ piece ∈ pieces, ',' ∉ piece ∧ '\n' ∉ piece) ∧ pieces.map trim = texts := by
  have hcomma : isBlank ',' = true → ',' = '\n' := fun hblank => absurd hblank (by decide)
  have hfeed : isBlank '\n' = true := by decide
  induction h with
  | nil => exact ⟨List.forall_mem_nil _, rfl⟩
  | @cons s piece texts pieces hpiece hpieces ih =>
    obtain ⟨hs, htexts⟩ := List.forall_mem_cons.1 hplain
    obtain ⟨hnone, htrim⟩ := ih htexts
    have hno_feed : '\n' ∉ s := by
      intro hmem
      rw [hs.no_blank '\n' hmem] at hfeed
      cases hfeed
    refine ⟨List.forall_mem_cons.2 ⟨⟨?_, ?_⟩, hnone⟩, ?_⟩
    · exact hpiece.notMem hcomma hs.no_comma
    · exact hpiece.notMem (fun _ => rfl) hno_feed
    · rw [List.map_cons, hpiece.trim_eq hs, htrim]

namespace Listed

variable {texts : List (List Char)} {list : List Char}

/-- There is no line feed in a list. -/
theorem notMem_feed (h : Listed texts list) (hplain : ∀ s ∈ texts, Plain s) : '\n' ∉ list := by
  obtain ⟨pieces, hpieces, hlist⟩ := h
  obtain ⟨hnone, -⟩ := pieces_of_padded hpieces hplain
  have hjoined : '\n' ∉ join ',' pieces :=
    notMem_join (by decide) fun piece hpiece => (hnone piece hpiece).2
  exact hlist.notMem (fun _ => rfl) hjoined

/-- The tokens of a list are the texts that were written. -/
theorem listTokens_eq (h : Listed texts list) (hplain : ∀ s ∈ texts, Plain s) :
    listTokens list = texts := by
  obtain ⟨pieces, hpieces, hlist⟩ := h
  obtain ⟨hnone, htrim⟩ := pieces_of_padded hpieces hplain
  rw [hlist.listTokens_eq]
  cases pieces with
  | nil =>
    rw [← htrim]
    rfl
  | cons piece pieces =>
    have hsplit := split_join (List.cons_ne_nil piece pieces) fun p hp => (hnone p hp).1
    rw [listTokens, hsplit, htrim, List.filter_eq_self]
    intro s hs
    rw [Bool.not_eq_true', List.isEmpty_eq_false_iff]
    exact (hplain s hs).nonempty

end Listed

end Text

/-- An address with a number behind a mark may stand in a list. -/
theorem plain_of_address (a : Address) {mark : Char} (hmark : mark ∈ ['.', '/', ':']) (n : Nat) :
    Plain (a.chars ++ mark :: digits n) := by
  have hne : a.chars ++ mark :: digits n ≠ [] :=
    List.append_ne_nil_of_right_ne_nil a.chars (List.cons_ne_nil mark (digits n))
  refine plain_of_marks hne fun c hc => ?_
  rcases List.mem_append.1 hc with hc | hc
  · rcases Address.isDigit_or_point hc with hdigit | rfl
    · exact .inl hdigit
    · exact .inr List.mem_cons_self
  · rcases List.mem_cons.1 hc with rfl | hc
    · exact .inr hmark
    · exact .inl (isDigit_of_mem_digits hc)

/-- The texts of prefixes may stand in a list. -/
theorem Prefix.plain_of_mem {entries : List Prefix} {s : List Char}
    (h : s ∈ entries.map Prefix.chars) : Plain s := by
  obtain ⟨p, -, rfl⟩ := List.mem_map.1 h
  exact plain_of_address p.network (by simp) p.length

/-- The texts of rate rules may stand in a list. -/
theorem RateRule.plain_of_mem {rules : List RateRule} {s : List Char}
    (h : s ∈ rules.map RateRule.chars) : Plain s := by
  obtain ⟨r, -, rfl⟩ := List.mem_map.1 h
  exact plain_of_address r.source (by simp) r.rate.perSecond.toNat

namespace Config

/-- A key as it is written. -/
def Key.chars : Key → List Char
  | .interface => "interface".toList
  | .blacklist => "ip_blacklist".toList
  | .rateRules => "ip_rate_limits".toList

/-- A key is written without blanks and equals signs, and starts no comment. -/
theorem Key.chars_spec (key : Key) :
    key.chars ≠ [] ∧ (∀ c ∈ key.chars, isBlank c = false ∧ c ≠ '=' ∧ c ≠ '#') ∧
      Key.ofChars? key.chars = some key := by
  have hchars : key.chars.all (fun c => !isBlank c && c != '=' && c != '#') = true := by
    cases key with
    | interface => rfl
    | blacklist => rfl
    | rateRules => rfl
  refine ⟨?_, fun c hc => ?_, ?_⟩
  · cases key with
    | interface => exact List.cons_ne_nil _ _
    | blacklist => exact List.cons_ne_nil _ _
    | rateRules => exact List.cons_ne_nil _ _
  · have hc := List.all_eq_true.1 hchars c hc
    simpa [and_assoc] using hc
  · cases key with
    | interface => rfl
    | blacklist => rfl
    | rateRules => rfl

/-- A line with a key and a value sets the key to the value, without blanks around it. -/
theorem setting?_line (key : Key) (value : List Char) :
    setting? (key.chars ++ '=' :: value) = some (key, trim value) := by
  obtain ⟨hne, hchars, hkey⟩ := key.chars_spec
  have hequals : '=' ∉ key.chars := fun hmem => (hchars '=' hmem).2.1 rfl
  have hname : trim key.chars = key.chars := trim_of_no_blank fun c hc => (hchars c hc).1
  have hhead : ∀ c ∈ key.chars.head?, c ∈ key.chars := fun c hc => List.mem_of_mem_head? hc
  have hline : trim (key.chars ++ '=' :: value) = key.chars ++ '=' :: trimEnd value :=
    trim_append_of_not_blank (by decide) key.chars value fun c hc => (hchars c (hhead c hc)).1
  have hsaid : ¬(key.chars ++ '=' :: trimEnd value = [] ∨
      (key.chars ++ '=' :: trimEnd value).head? = some '#') := by
    rintro (hempty | hcomment)
    · exact List.append_ne_nil_of_left_ne_nil hne _ hempty
    · rw [List.head?_append_of_ne_nil _ hne] at hcomment
      exact (hchars '#' (hhead '#' hcomment)).2.2 rfl
  rw [setting?, hline, if_neg hsaid, splitOnce_append _ hequals]
  simp only [hname, hkey, Option.map_some, trim_trimEnd]

/-- There is a line feed in a line only if there is one in the value. -/
theorem notMem_line (key : Key) {value : List Char} (h : '\n' ∉ value) :
    '\n' ∉ key.chars ++ '=' :: value := by
  have hfeed : isBlank '\n' = true := rfl
  obtain ⟨-, hchars, -⟩ := key.chars_spec
  have hkey : '\n' ∉ key.chars := by
    intro hmem
    rw [(hchars '\n' hmem).1] at hfeed
    cases hfeed
  rw [List.mem_append, List.mem_cons, not_or, not_or]
  exact ⟨hkey, by decide, h⟩

/-- A text without a line feed sets what its only line sets. -/
theorem settings_of_notMem {line : List Char} (h : '\n' ∉ line) :
    settings line = [line].filterMap setting? := by
  rw [settings_eq, split_of_notMem h]

/-- A carriage return at the end of a line does not matter. -/
theorem setting?_concat_return (line : List Char) : setting? (line ++ ['\r']) = setting? line := by
  have hreturn : isBlank '\r' = true := rfl
  rw [setting?, setting?, trim_concat_of_blank hreturn]

/-- A text sets what its lines set, one after the other. -/
theorem settings_of_lined {lines : List (List Char)} {text : List Char} (h : Lined lines text)
    (hfeed : ∀ line ∈ lines, '\n' ∉ line) : settings text = lines.filterMap setting? := by
  -- A carriage return stays with its line, as the text is cut at line feeds only.
  induction h with
  | nothing => rfl
  | last line => exact settings_of_notMem (hfeed line List.mem_cons_self)
  | @feed line lines rest h ih =>
    obtain ⟨hline, hlines⟩ := List.forall_mem_cons.1 hfeed
    rw [settings_append, settings_of_notMem hline, ih hlines, ← List.filterMap_append,
      List.singleton_append]
  | @returnFeed line lines rest h ih =>
    obtain ⟨hline, hlines⟩ := List.forall_mem_cons.1 hfeed
    have hreturned : '\n' ∉ line ++ ['\r'] := by simp [hline]
    have htext : line ++ '\r' :: '\n' :: rest = (line ++ ['\r']) ++ '\n' :: rest := by simp
    rw [htext, settings_append, settings_of_notMem hreturned, ih hlines, List.filterMap_cons,
      List.filterMap_cons, setting?_concat_return]
    cases setting? line with
    | none => rfl
    | some s => rfl

/-- In whatever order settings stand, a key that is set once has the same value. -/
theorem valuesOf_eq_singleton {key : Key} {value : List Char}
    {settings settings' : List (Key × List Char)} (h : settings.Perm settings')
    (hvalue : valuesOf key settings' = [value]) : valuesOf key settings = [value] := by
  have hperm : (valuesOf key settings).Perm (valuesOf key settings') := (h.filter _).map _
  rw [hvalue] at hperm
  exact List.perm_singleton.1 hperm

/-- A list that was trimmed has the same tokens. -/
theorem listTokens_trim (list : List Char) : listTokens (trim list) = listTokens list := by
  rw [listTokens, listTokens, map_trim_split_trim (by decide)]

section Lists

variable {list : List Char}

/-- A list of prefixes that was written has these prefixes, and no warnings. -/
theorem readBlacklist_of_listed {entries : List Prefix}
    (h : Listed (entries.map Prefix.chars) list) :
    (∀ p, p ∈ (readBlacklist (trim list)).1.items ↔ p ∈ entries) ∧
      warningsOf (.blacklist, trim list) = [] := by
  have htokens : listTokens (trim list) = entries.map Prefix.chars := by
    rw [listTokens_trim, h.listTokens_eq fun s => Prefix.plain_of_mem]
  constructor
  · intro p
    rw [mem_readBlacklist, htokens]
    simp only [List.mem_map, exists_exists_and_eq_and, Prefix.parse_chars, Except.ok.injEq,
      exists_eq_right]
  · rw [warningsOf, htokens, List.filterMap_eq_nil_iff]
    intro token htoken
    obtain ⟨p, -, rfl⟩ := List.mem_map.1 htoken
    rw [Key.fault?, p.parse_chars]
    rfl

/-- A list of rules for different sources that was written has these rules, and no warnings. -/
theorem readRateRules_of_listed {rules : List RateRule}
    (h : Listed (rules.map RateRule.chars) list) (hsources : (rules.map RateRule.source).Nodup) :
    (∀ r, r ∈ (readRateRules (trim list)).1.items ↔ r ∈ rules) ∧
      warningsOf (.rateRules, trim list) = [] := by
  have htokens : listTokens (trim list) = rules.map RateRule.chars := by
    rw [listTokens_trim, h.listTokens_eq fun s => RateRule.plain_of_mem]
  constructor
  · intro r
    rw [mem_readRateRules, htokens]
    constructor
    · rintro ⟨front, token, back, hrules, hparse, -⟩
      have hmem : token ∈ rules.map RateRule.chars := by
        rw [hrules]
        exact List.mem_append_right front List.mem_cons_self
      obtain ⟨r', hr', rfl⟩ := List.mem_map.1 hmem
      cases r'.parse_chars.symm.trans hparse
      exact hr'
    · intro hr
      obtain ⟨front, back, rfl⟩ := List.append_of_mem hr
      refine ⟨front.map RateRule.chars, r.chars, back.map RateRule.chars, ?_, r.parse_chars, ?_⟩
      · rw [List.map_append, List.map_cons]
      · intro other hother r' hparse hsource
        obtain ⟨written, hr', rfl⟩ := List.mem_map.1 hother
        cases written.parse_chars.symm.trans hparse
        rw [List.map_append, List.map_cons] at hsources
        have hnodup := (List.nodup_cons.1 (List.nodup_append.1 hsources).2.1).1
        exact hnodup (List.mem_map.2 ⟨r', hr', hsource⟩)
  · rw [warningsOf, htokens, List.filterMap_eq_nil_iff]
    intro token htoken
    obtain ⟨r, -, rfl⟩ := List.mem_map.1 htoken
    rw [Key.fault?, r.parse_chars]
    rfl

end Lists

/-- A configuration as it may be written: the lines of its interface and of its lists, in some
order. -/
def Written (raw name : String) (entries : List Prefix) (rules : List RateRule) : Prop :=
  ∃ blacklist rateRules lines,
    Listed (entries.map Prefix.chars) blacklist ∧ Listed (rules.map RateRule.chars) rateRules ∧
    lines.Perm ["interface=".toList ++ name.toList, "ip_blacklist=".toList ++ blacklist,
      "ip_rate_limits=".toList ++ rateRules] ∧
    Lined lines raw.toList

/-- A configuration that was written sets its interface and its lists, in some order. -/
theorem Written.settings {raw name : String} {entries : List Prefix} {rules : List RateRule}
    (h : Written raw name entries rules) (hname : '\n' ∉ name.toList) :
    ∃ blacklist rateRules, Listed (entries.map Prefix.chars) blacklist ∧
      Listed (rules.map RateRule.chars) rateRules ∧
      (settings raw.toList).Perm [(.interface, trim name.toList), (.blacklist, trim blacklist),
        (.rateRules, trim rateRules)] := by
  obtain ⟨blacklist, rateRules, lines, hblacklist, hrateRules, hlines, hraw⟩ := h
  refine ⟨blacklist, rateRules, hblacklist, hrateRules, ?_⟩
  let written : List (Key × List Char) :=
    [(.interface, name.toList), (.blacklist, blacklist), (.rateRules, rateRules)]
  have hwritten : lines.Perm (written.map fun s => s.1.chars ++ '=' :: s.2) := by
    have hinterface : "interface=".toList = "interface".toList ++ ['='] := by simp
    have hentries : "ip_blacklist=".toList = "ip_blacklist".toList ++ ['='] := by simp
    have hlimits : "ip_rate_limits=".toList = "ip_rate_limits".toList ++ ['='] := by simp
    rw [hinterface, hentries, hlimits, List.append_assoc, List.append_assoc, List.append_assoc]
      at hlines
    exact hlines
  have hvalues : ∀ s ∈ written, '\n' ∉ s.2 := by
    simp only [written, List.forall_mem_cons]
    exact ⟨hname, hblacklist.notMem_feed fun s => Prefix.plain_of_mem,
      hrateRules.notMem_feed fun s => RateRule.plain_of_mem, List.forall_mem_nil _⟩
  have hfeed : ∀ line ∈ lines, '\n' ∉ line := by
    intro line hmem
    obtain ⟨s, hs, rfl⟩ := List.mem_map.1 (hwritten.mem_iff.1 hmem)
    exact notMem_line s.1 (hvalues s hs)
  have hset := hwritten.filterMap setting?
  rw [← settings_of_lined hraw hfeed, List.filterMap_map] at hset
  simp only [Function.comp_def, setting?_line, List.filterMap_eq_map'] at hset
  exact hset

/-- The texts of prefixes and rate rules are read as what they were written for. So is a
configuration with an interface, any prefixes, and rules for different sources: it has this
interface, these prefixes, these rules and no warnings. -/
theorem written_texts_read_back :
    (∀ p : Prefix, Prefix.parse p.text.toList = .ok p) ∧
    (∀ r : RateRule, RateRule.parse r.text.toList = .ok r) ∧
    ∀ (raw name : String) (entries : List Prefix) (rules : List RateRule), name ≠ "" →
      '\n' ∉ name.toList → trim name.toList = name.toList → (rules.map RateRule.source).Nodup →
      Written raw name entries rules →
      (parse raw).interface = some name ∧
      (∃ prefixes, (parse raw).blacklist = some prefixes ∧
        ∀ p, p ∈ prefixes.items ↔ p ∈ entries) ∧
      (∃ limits, (parse raw).rateRules = some limits ∧ ∀ r, r ∈ limits.items ↔ r ∈ rules) ∧
      (parse raw).warnings = [] := by
  refine ⟨fun p => ?_, fun r => ?_, ?_⟩
  · rw [Prefix.text, String.toList_ofList, p.parse_chars]
  · rw [RateRule.text, String.toList_ofList, r.parse_chars]
  · intro raw name entries rules hname hline htrim hsources hwritten
    obtain ⟨blacklist, rateRules, hblacklist, hrateRules, hset⟩ := hwritten.settings hline
    rw [htrim] at hset
    obtain ⟨hentries, hnoFault⟩ := readBlacklist_of_listed hblacklist
    obtain ⟨hrules, hnoRuleFault⟩ := readRateRules_of_listed hrateRules hsources
    have hinterface : valuesOf .interface (settings raw.toList) = [name.toList] :=
      valuesOf_eq_singleton hset rfl
    have hprefixes : valuesOf .blacklist (settings raw.toList) = [trim blacklist] :=
      valuesOf_eq_singleton hset rfl
    have hlimits : valuesOf .rateRules (settings raw.toList) = [trim rateRules] :=
      valuesOf_eq_singleton hset rfl
    rw [parse_eq_said]
    refine ⟨?_, ⟨(readBlacklist (trim blacklist)).1, ?_, hentries⟩,
      ⟨(readRateRules (trim rateRules)).1, ?_, hrules⟩, ?_⟩
    · rw [said_interface, hinterface]
      exact ⟨rfl, hname⟩
    · rw [said, hprefixes]
      rfl
    · rw [said, hlimits]
      rfl
    · rw [said, List.flatMap_eq_nil_iff]
      intro s hs
      have hs' := hset.mem_iff.1 hs
      simp only [List.mem_cons, List.not_mem_nil, or_false] at hs'
      rcases hs' with rfl | rfl | rfl
      · exact List.filterMap_eq_nil_iff.2 fun _ _ => rfl
      · exact hnoFault
      · exact hnoRuleFault

/-- A name may have the characters that structure the text, and a prefix may be repeated. The rules
are for two sources. -/
theorem written_text_with_marks_in_name :
    let raw :=
      "ip_rate_limits= 10.0.0.2:5,10.0.0.3:7\r\ninterface=#,=e\nip_blacklist=10.0.0.0/8 ,10.0.0.0/8"
    let rule : RateRule := ⟨Address.ofOctets 10 0 0 2, ⟨5, by decide⟩⟩
    let rule' : RateRule := ⟨Address.ofOctets 10 0 0 3, ⟨7, by decide⟩⟩
    ([rule, rule'].map RateRule.source).Nodup ∧ (parse raw).interface = some "#,=e" ∧
      (∃ prefixes, (parse raw).blacklist = some prefixes ∧
        ∀ p, p ∈ prefixes.items ↔ p = Prefix.around (Address.ofOctets 10 0 0 0) 8) ∧
      (∃ limits, (parse raw).rateRules = some limits ∧
        ∀ r, r ∈ limits.items ↔ r = rule ∨ r = rule') ∧
      (parse raw).warnings = [] := by
  intro raw rule rule'
  let entry := Prefix.around (Address.ofOctets 10 0 0 0) 8
  have hsources : ([rule, rule'].map RateRule.source).Nodup := by decide
  have hlist : Listed ([entry, entry].map Prefix.chars) "10.0.0.0/8 ,10.0.0.0/8".toList := by
    have hfirst : Padded entry.chars "10.0.0.0/8 ".toList :=
      ⟨[], [' '], by decide, by simp; decide⟩
    have hsecond : Padded entry.chars "10.0.0.0/8".toList := ⟨[], [], by decide, by simp⟩
    exact ⟨_, .cons hfirst (.cons hsecond .nil), [], [], by decide, by simp⟩
  have hrules : Listed ([rule, rule'].map RateRule.chars) " 10.0.0.2:5,10.0.0.3:7".toList := by
    have hfirst : Padded rule.chars " 10.0.0.2:5".toList :=
      ⟨[' '], [], by decide, by simp; decide⟩
    have hsecond : Padded rule'.chars "10.0.0.3:7".toList := ⟨[], [], by decide, by simp⟩
    exact ⟨_, .cons hfirst (.cons hsecond .nil), [], [], by decide, by simp⟩
  have hraw : Lined ["ip_rate_limits=".toList ++ " 10.0.0.2:5,10.0.0.3:7".toList,
      "interface=".toList ++ "#,=e".toList,
      "ip_blacklist=".toList ++ "10.0.0.0/8 ,10.0.0.0/8".toList] raw.toList := by
    have htext : raw.toList =
        "ip_rate_limits=".toList ++ " 10.0.0.2:5,10.0.0.3:7".toList ++ '\r' :: '\n' ::
          ("interface=".toList ++ "#,=e".toList ++ '\n' ::
            ("ip_blacklist=".toList ++ "10.0.0.0/8 ,10.0.0.0/8".toList)) := by
      simp [raw]
    rw [htext]
    exact .returnFeed _ (.feed _ (.last _))
  have hwritten : Written raw "#,=e" [entry, entry] [rule, rule'] := by
    refine ⟨_, _, _, hlist, hrules, ?_, hraw⟩
    exact (List.Perm.swap _ _ _).trans ((List.Perm.swap _ _ _).cons _)
  obtain ⟨-, -, hread⟩ := written_texts_read_back
  obtain ⟨hinterface, ⟨prefixes, hprefixes, hmem⟩, ⟨limits, hlimits, hmem'⟩, hwarnings⟩ :=
    hread raw "#,=e" [entry, entry] [rule, rule'] (by decide) (by decide) (by decide) hsources
      hwritten
  refine ⟨hsources, hinterface, ⟨prefixes, hprefixes, fun p => ?_⟩,
    ⟨limits, hlimits, fun r => ?_⟩, hwarnings⟩
  · rw [hmem, List.mem_cons, List.mem_singleton, or_self]
  · rw [hmem', List.mem_cons, List.mem_singleton]

end Config

end SourceFilter
