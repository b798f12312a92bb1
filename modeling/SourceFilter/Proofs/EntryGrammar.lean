import SourceFilter.Proofs.ConfigText
import SourceFilter.Proofs.Numeral

/-!
# The grammar of configuration entries

An address is four numerals below 256 with points between them. A blacklist entry is an address, or
an address and a numeral up to 32 with a slash between them; a rate rule is an address and a
positive numeral of 32 bits with a colon between them. The readers take exactly these texts. Of any
other text they tell what is wrong with it, judging the separator first, the part before it next,
and the part behind it last.
-/

namespace SourceFilter

open Text

namespace Address

variable {s : List Char} {a : Address} {n : Nat}

/-- An address as it may be written: its octets, the most significant one first. -/
def Written (s : List Char) (a : Address) : Prop :=
  ∃ w x y z i j k l, s = w ++ '.' :: (x ++ '.' :: (y ++ '.' :: z)) ∧
    (Numeral w i ∧ Numeral x j ∧ Numeral y k ∧ Numeral z l) ∧
    (i < 256 ∧ j < 256 ∧ k < 256 ∧ l < 256) ∧
    a.toNat = ((i * 256 + j) * 256 + k) * 256 + l

/-- An octet is read from a numeral below 256. -/
theorem octet?_eq_some_iff : octet? s = some n ↔ Numeral s n ∧ n < 256 := by
  rw [octet?, Option.filter_eq_some_iff, canonical?_eq_some_iff, decide_eq_true_iff]

/-- An address is read exactly from what may be written for it. -/
theorem parse?_eq_some_iff : parse? s = some a ↔ Written s a := by
  constructor
  · intro h
    rw [parse?] at h
    split at h
    next w x y z hsplit =>
      simp only [Option.bind_eq_bind, Option.bind_eq_some_iff, Option.pure_def, Option.some.injEq,
        octet?_eq_some_iff] at h
      obtain ⟨i, ⟨hw, hi⟩, j, ⟨hx, hj⟩, k, ⟨hy, hk⟩, l, ⟨hz, hl⟩, ha⟩ := h
      have hs : s = w ++ '.' :: (x ++ '.' :: (y ++ '.' :: z)) := by
        rw [← join_split '.' s, hsplit]
        rfl
      refine ⟨w, x, y, z, i, j, k, l, hs, ⟨hw, hx, hy, hz⟩, ⟨hi, hj, hk, hl⟩, ?_⟩
      rw [← ha, ofOctets, BitVec.toNat_ofNat]
      exact Nat.mod_eq_of_lt (by omega)
    next => cases h
  · rintro ⟨w, x, y, z, i, j, k, l, rfl, ⟨hw, hx, hy, hz⟩, ⟨hi, hj, hk, hl⟩, ha⟩
    have hpoint : ('.' : Char).isDigit = false := by decide
    have hjoin : join '.' [w, x, y, z] = w ++ '.' :: (x ++ '.' :: (y ++ '.' :: z)) := rfl
    have hsplit : split '.' (w ++ '.' :: (x ++ '.' :: (y ++ '.' :: z))) = [w, x, y, z] := by
      rw [← hjoin]
      refine split_join (List.cons_ne_nil w [x, y, z]) ?_
      simp only [List.forall_mem_cons]
      exact ⟨hw.notMem hpoint, hx.notMem hpoint, hy.notMem hpoint, hz.notMem hpoint,
        List.forall_mem_nil _⟩
    have hoctets : ofOctets i j k l = a := by
      apply BitVec.eq_of_toNat_eq
      rw [ofOctets, BitVec.toNat_ofNat, ha]
      exact Nat.mod_eq_of_lt (by omega)
    rw [parse?, hsplit]
    simp only [octet?_eq_some_iff.2 ⟨hw, hi⟩, octet?_eq_some_iff.2 ⟨hx, hj⟩,
      octet?_eq_some_iff.2 ⟨hy, hk⟩, octet?_eq_some_iff.2 ⟨hz, hl⟩, Option.bind_eq_bind,
      Option.bind_some, Option.pure_def, hoctets]

/-- No address is read from what is not written for one. -/
theorem parse?_eq_none_iff : parse? s = none ↔ ¬∃ a, Written s a := by
  rw [Option.eq_none_iff_forall_ne_some, not_exists]
  exact forall_congr' fun a => not_congr parse?_eq_some_iff

/-- An address is written with digits and points. -/
theorem Written.notMem (h : Written s a) {c : Char} (hc : c.isDigit = false) (hpoint : c ≠ '.') :
    c ∉ s := by
  obtain ⟨w, x, y, z, i, j, k, l, rfl, ⟨hw, hx, hy, hz⟩, -, -⟩ := h
  simp only [List.mem_append, List.mem_cons, not_or]
  exact ⟨hw.notMem hc, hpoint, hx.notMem hc, hpoint, hy.notMem hc, hpoint, hz.notMem hc⟩

end Address

/-- Reads one token. One that cannot be read is reported as it was written. -/
def readToken {α : Type} (parse : List Char → Except EntryFault α) (token : List Char) :
    Except Warning α :=
  (parse token).mapError fun fault => ⟨fault, String.ofList token⟩

section Tokens

variable {α : Type} {parse : List Char → Except EntryFault α} {token : List Char} {entry : α}
  {fault : EntryFault} {w : Warning}

/-- A token that is read is not reported. -/
theorem readToken_of_ok (h : parse token = .ok entry) : readToken parse token = .ok entry := by
  rw [readToken, h]
  rfl

/-- A token with a fault is reported for this fault. -/
theorem readToken_of_error (h : parse token = .error fault) :
    readToken parse token = .error ⟨fault, String.ofList token⟩ := by
  rw [readToken, h]
  rfl

/-- What is reported about a token is what a list with this token reports about it. -/
theorem mem_readEntries_of_readToken (hw : readToken parse token = .error w) {list : List Char}
    (hmem : token ∈ listTokens list) : w ∈ (readEntries parse list).2 := by
  rw [Config.readEntries_eq, List.mem_filterMap]
  refine ⟨token, hmem, ?_⟩
  cases hparse : parse token with
  | ok entry => cases (readToken_of_ok hparse).symm.trans hw
  | error fault =>
    cases (readToken_of_error hparse).symm.trans hw
    rfl

/-- A reader that takes a token if it is well formed, and finds a fault in it otherwise, tells by
this whether the token is well formed. -/
theorem readToken_decides {WellFormed : Prop} {Faulty : EntryFault → Prop}
    (htaken : WellFormed → ∃ entry, parse token = .ok entry)
    (hrejected : ¬WellFormed → ∃ fault, parse token = .error fault ∧ Faulty fault) :
    ((∃ entry, readToken parse token = .ok entry) ↔ WellFormed) ∧
      ∀ w, readToken parse token = .error w →
        w.token = String.ofList token ∧ Faulty w.fault ∧
          ∀ list, token ∈ listTokens list → w ∈ (readEntries parse list).2 := by
  by_cases h : WellFormed
  · obtain ⟨entry, hentry⟩ := htaken h
    have hread := readToken_of_ok hentry
    refine ⟨iff_of_true ⟨entry, hread⟩ h, fun w hw => ?_⟩
    cases hread.symm.trans hw
  · obtain ⟨fault, hparse, hfault⟩ := hrejected h
    have hread := readToken_of_error hparse
    refine ⟨iff_of_false ?_ h, fun w hw => ?_⟩
    · rintro ⟨entry, hentry⟩
      cases hread.symm.trans hentry
    · have hlist (list : List Char) (hmem : token ∈ listTokens list) :=
        mem_readEntries_of_readToken hw hmem
      cases hread.symm.trans hw
      exact ⟨rfl, hfault, hlist⟩

end Tokens

namespace Prefix

variable {token : List Char} {a : Address} {n : Nat} {p : Prefix}

/-- A blacklist entry as it may be written: an address alone, or with a length behind a slash. -/
inductive Written : List Char → Address → Nat → Prop
  /-- An address alone, where all bits count. -/
  | alone {s : List Char} {a : Address} (h : Address.Written s a) : Written s a 32
  /-- An address with the number of the leading bits that count. -/
  | sized {s t : List Char} {a : Address} {n : Nat} (h : Address.Written s a)
      (hlength : Numeral t n) (hle : n ≤ 32) : Written (s ++ '/' :: t) a n

/-- What a token that is no blacklist entry is reported for. -/
inductive Faulty (token : List Char) : EntryFault → Prop
  /-- There is no address before the first slash. -/
  | address (h : ¬∃ a, Address.Written (before '/' token) a) : Faulty token .invalidAddress
  /-- There is one, so the length is wrong. -/
  | length (h : ∃ a, Address.Written (before '/' token) a) : Faulty token .invalidLength

/-- There is a prefix of every length up to 32 around an address. It has the leading bits of the
address, and zeros behind them. -/
theorem of?_eq_some (a : Address) (hn : n ≤ 32) :
    ∃ p, of? a n = some p ∧ p.length = n ∧
      ∀ i, p.network.getMsbD i = (decide (i < n) && a.getMsbD i) := by
  have hlt : n < 33 := Nat.lt_succ_of_le hn
  refine ⟨around a ⟨n, hlt⟩, dif_pos hlt, rfl, fun i => ?_⟩
  have hnetwork : (around a ⟨n, hlt⟩).network = a &&& BitVec.allOnes 32 <<< (32 - n) := rfl
  rw [hnetwork, BitVec.getMsbD_and, BitVec.getMsbD_shiftLeft, BitVec.getMsbD_allOnes, Bool.and_comm]
  have hmask : decide (i + (32 - n) < 32) = decide (i < n) := decide_eq_decide.2 (by omega)
  rw [hmask]

/-- There is no prefix of a greater length. -/
theorem of?_eq_none (a : Address) (hn : 32 < n) : of? a n = none :=
  dif_neg (by omega)

/-- What is written for an entry is read. -/
theorem Written.parse (h : Written token a n) :
    ∃ p, Prefix.parse token = .ok p ∧ p.length = n ∧
      ∀ i, p.network.getMsbD i = (decide (i < n) && a.getMsbD i) := by
  cases h with
  | alone h =>
    obtain ⟨p, hp, hlength, hbits⟩ := of?_eq_some a (Nat.le_refl 32)
    refine ⟨p, ?_, hlength, hbits⟩
    have hslash : '/' ∉ token := h.notMem (by decide) (by decide)
    cases hp
    rw [Prefix.parse, splitOnce_eq_none_iff.2 hslash]
    simp only [Address.parse?_eq_some_iff.2 h]
    rfl
  | @sized s t a n h hnumeral hle =>
    obtain ⟨p, hp, hlength, hbits⟩ := of?_eq_some a hle
    refine ⟨p, ?_, hlength, hbits⟩
    have hslash : '/' ∉ s := h.notMem (by decide) (by decide)
    rw [Prefix.parse, splitOnce_append t hslash]
    simp only [Address.parse?_eq_some_iff.2 h, canonical?_eq_some_iff.2 hnumeral, Option.bind_some,
      hp]

/-- A token that does not start with an address up to its first slash is reported for that. -/
theorem parse_of_no_address (h : ¬∃ a, Address.Written (before '/' token) a) :
    Prefix.parse token = .error .invalidAddress := by
  have hnone := Address.parse?_eq_none_iff.2 h
  rw [Prefix.parse]
  cases hcut : splitOnce '/' token with
  | none =>
    rw [before_of_notMem (splitOnce_eq_none_iff.1 hcut)] at hnone
    simp only [hnone]
  | some parts =>
    rw [before_of_splitOnce hcut] at hnone
    simp only [hnone]

/-- A token that starts with an address up to its first slash, and is no entry, is reported for
what comes behind. -/
theorem parse_of_no_length (haddress : ∃ a, Address.Written (before '/' token) a)
    (h : ¬∃ a n, Written token a n) : Prefix.parse token = .error .invalidLength := by
  obtain ⟨a, ha⟩ := haddress
  rw [Prefix.parse]
  cases hcut : splitOnce '/' token with
  | none =>
    rw [before_of_notMem (splitOnce_eq_none_iff.1 hcut)] at ha
    exact absurd ⟨a, 32, .alone ha⟩ h
  | some parts =>
    obtain ⟨address, length⟩ := parts
    obtain ⟨rfl, hslash⟩ := eq_append_of_splitOnce hcut
    rw [before_append hslash] at ha
    have hlength : (canonical? length).bind (of? a) = none := by
      rw [Option.bind_eq_none_iff]
      intro n hn
      refine of?_eq_none a (Nat.lt_of_not_le fun hle => ?_)
      exact h ⟨a, n, .sized ha (canonical?_eq_some_iff.1 hn) hle⟩
    simp only [Address.parse?_eq_some_iff.2 ha, hlength]

/-- What is no entry is reported for the first thing that is wrong with it. -/
theorem exists_fault (h : ¬∃ a n, Written token a n) :
    ∃ fault, Prefix.parse token = .error fault ∧ Faulty token fault := by
  by_cases haddress : ∃ a, Address.Written (before '/' token) a
  · exact ⟨_, parse_of_no_length haddress h, .length haddress⟩
  · exact ⟨_, parse_of_no_address haddress, .address haddress⟩

end Prefix

namespace RateRule

variable {token : List Char} {a : Address} {n : Nat}

/-- A rate rule as it may be written: an address, and a positive number of 32 bits behind a
colon. -/
def Written (token : List Char) (a : Address) (n : Nat) : Prop :=
  ∃ s t, token = s ++ ':' :: t ∧ Address.Written s a ∧ Numeral t n ∧ 0 < n ∧ n < 4294967296

/-- What a token that is no rate rule is reported for. -/
inductive Faulty (token : List Char) : EntryFault → Prop
  /-- There is no colon. -/
  | colon (h : ':' ∉ token) : Faulty token .malformedRule
  /-- There is no address before the first colon. -/
  | address (hcolon : ':' ∈ token) (h : ¬∃ a, Address.Written (before ':' token) a) :
    Faulty token .invalidAddress
  /-- There is one, so the rate is wrong. -/
  | rate (hcolon : ':' ∈ token) (h : ∃ a, Address.Written (before ':' token) a) :
    Faulty token .invalidRate

/-- What is written for a rule is read. -/
theorem Written.parse (h : Written token a n) :
    ∃ r, RateRule.parse token = .ok r ∧ r.source = a ∧ r.rate.perSecond.toNat = n := by
  obtain ⟨s, t, rfl, haddress, hnumeral, hpos, hlt⟩ := h
  have hcolon : ':' ∉ s := haddress.notMem (by decide) (by decide)
  have hrate : ∃ rate, Rate.of? n = some rate ∧ rate.perSecond.toNat = n :=
    ⟨_, dif_pos ⟨hpos, hlt⟩, UInt32.toNat_ofNatLT⟩
  obtain ⟨rate, hof, hn⟩ := hrate
  refine ⟨⟨a, rate⟩, ?_, rfl, hn⟩
  rw [RateRule.parse, splitOnce_append t hcolon]
  simp only [Address.parse?_eq_some_iff.2 haddress, canonical?_eq_some_iff.2 hnumeral,
    Option.bind_some, hof]

/-- A token without a colon is reported for that. -/
theorem parse_of_no_colon (h : ':' ∉ token) : RateRule.parse token = .error .malformedRule := by
  rw [RateRule.parse, splitOnce_eq_none_iff.2 h]

/-- A token that does not start with an address up to its first colon is reported for that. -/
theorem parse_of_no_address (hcolon : ':' ∈ token)
    (h : ¬∃ a, Address.Written (before ':' token) a) :
    RateRule.parse token = .error .invalidAddress := by
  have hnone := Address.parse?_eq_none_iff.2 h
  rw [RateRule.parse]
  cases hcut : splitOnce ':' token with
  | none => exact absurd hcolon (splitOnce_eq_none_iff.1 hcut)
  | some parts =>
    rw [before_of_splitOnce hcut] at hnone
    simp only [hnone]

/-- A token that starts with an address up to its first colon, and is no rule, is reported for what
comes behind. -/
theorem parse_of_no_rate (hcolon : ':' ∈ token)
    (haddress : ∃ a, Address.Written (before ':' token) a) (h : ¬∃ a n, Written token a n) :
    RateRule.parse token = .error .invalidRate := by
  obtain ⟨a, ha⟩ := haddress
  rw [RateRule.parse]
  cases hcut : splitOnce ':' token with
  | none => exact absurd hcolon (splitOnce_eq_none_iff.1 hcut)
  | some parts =>
    obtain ⟨address, perSecond⟩ := parts
    obtain ⟨rfl, hbefore⟩ := eq_append_of_splitOnce hcut
    rw [before_append hbefore] at ha
    have hrate : (canonical? perSecond).bind Rate.of? = none := by
      rw [Option.bind_eq_none_iff]
      intro n hn
      refine dif_neg fun hbounds => ?_
      exact h ⟨a, n, address, perSecond, rfl, ha, canonical?_eq_some_iff.1 hn, hbounds⟩
    simp only [Address.parse?_eq_some_iff.2 ha, hrate]

/-- What is no rule is reported for the first thing that is wrong with it. -/
theorem exists_fault (h : ¬∃ a n, Written token a n) :
    ∃ fault, RateRule.parse token = .error fault ∧ Faulty token fault := by
  by_cases hcolon : ':' ∈ token
  · by_cases haddress : ∃ a, Address.Written (before ':' token) a
    · exact ⟨_, parse_of_no_rate hcolon haddress h, .rate hcolon haddress⟩
    · exact ⟨_, parse_of_no_address hcolon haddress, .address hcolon haddress⟩
  · exact ⟨_, parse_of_no_colon hcolon, .colon hcolon⟩

end RateRule

/-- A token is read as a blacklist entry exactly when it is an address, or an address and a numeral
up to 32 with a slash between them; the entry has this length and the leading bits of the address.
A token is read as a rate rule exactly when it is an address and a positive numeral of 32 bits with
a colon between them. Any other token is reported as it was written, also by each list that it
stands in, for the first thing that is wrong with it. -/
theorem tokens_read_by_grammar (token : List Char) :
    ((∃ p, readToken Prefix.parse token = .ok p) ↔ ∃ a n, Prefix.Written token a n) ∧
    (∀ p a n, readToken Prefix.parse token = .ok p → Prefix.Written token a n →
      p.length = n ∧ ∀ i, p.network.getMsbD i = (decide (i < n) && a.getMsbD i)) ∧
    (∀ w, readToken Prefix.parse token = .error w →
      w.token = String.ofList token ∧ Prefix.Faulty token w.fault ∧
        ∀ list, token ∈ listTokens list → w ∈ (readEntries Prefix.parse list).2) ∧
    ((∃ r, readToken RateRule.parse token = .ok r) ↔ ∃ a n, RateRule.Written token a n) ∧
    (∀ r a n, readToken RateRule.parse token = .ok r → RateRule.Written token a n →
      r.source = a ∧ r.rate.perSecond.toNat = n ∧ r.rate.interval.toNat = 1000000000 / n) ∧
    (∀ w, readToken RateRule.parse token = .error w →
      w.token = String.ofList token ∧ RateRule.Faulty token w.fault ∧
        ∀ list, token ∈ listTokens list → w ∈ (readEntries RateRule.parse list).2) := by
  have hentryTaken (h : ∃ a n, Prefix.Written token a n) : ∃ p, Prefix.parse token = .ok p := by
    obtain ⟨a, n, h⟩ := h
    obtain ⟨p, hp, -⟩ := h.parse
    exact ⟨p, hp⟩
  have hruleTaken (h : ∃ a n, RateRule.Written token a n) :
      ∃ r, RateRule.parse token = .ok r := by
    obtain ⟨a, n, h⟩ := h
    obtain ⟨r, hr, -⟩ := h.parse
    exact ⟨r, hr⟩
  have hentry (p : Prefix) (a : Address) (n : Nat) (hp : readToken Prefix.parse token = .ok p)
      (h : Prefix.Written token a n) :
      p.length = n ∧ ∀ i, p.network.getMsbD i = (decide (i < n) && a.getMsbD i) := by
    obtain ⟨p', hp', hvalues⟩ := h.parse
    cases (readToken_of_ok hp').symm.trans hp
    exact hvalues
  have hrule (r : RateRule) (a : Address) (n : Nat) (hr : readToken RateRule.parse token = .ok r)
      (h : RateRule.Written token a n) :
      r.source = a ∧ r.rate.perSecond.toNat = n ∧ r.rate.interval.toNat = 1000000000 / n := by
    obtain ⟨r', hr', hsource, hrate⟩ := h.parse
    cases (readToken_of_ok hr').symm.trans hr
    have hinterval := r.rate.toNat_interval
    rw [hrate] at hinterval
    exact ⟨hsource, hrate, hinterval⟩
  obtain ⟨hentries, hentryFaults⟩ := readToken_decides hentryTaken Prefix.exists_fault
  obtain ⟨hrules, hruleFaults⟩ := readToken_decides hruleTaken RateRule.exists_fault
  exact ⟨hentries, hentry, hentryFaults, hrules, hrule, hruleFaults⟩

/-- Of a prefix only its leading bits are kept. A length of two digits must not start with a zero,
and a rate must be positive. -/
theorem tokens_read_and_reported :
    (∃ p, readToken Prefix.parse "10.1.2.3/8".toList = .ok p ∧ p.length = (8 : Nat) ∧
      p.network.getMsbD 6 = true ∧ p.network.getMsbD 15 = false) ∧
    Prefix.Faulty "10.1.2.3/08".toList .invalidLength ∧
    (∃ r, readToken RateRule.parse "10.1.2.3:7".toList = .ok r ∧
      r.rate.interval.toNat = 142857142) ∧
    RateRule.Faulty "10.1.2.3:0".toList .invalidRate := by
  have haddress : Address.Written "10.1.2.3".toList 0x0A010203#32 :=
    ⟨digits 10, digits 1, digits 2, digits 3, 10, 1, 2, 3, by decide,
      ⟨numeral_digits 10, numeral_digits 1, numeral_digits 2, numeral_digits 3⟩, by decide,
      by decide⟩
  have hprefix : Prefix.Written "10.1.2.3/8".toList 0x0A010203#32 8 :=
    .sized haddress (numeral_digits 8) (by decide)
  have hrule : RateRule.Written "10.1.2.3:7".toList 0x0A010203#32 7 :=
    ⟨"10.1.2.3".toList, digits 7, by decide, haddress, numeral_digits 7, by decide, by decide⟩
  obtain ⟨hentries, hentry, -⟩ := tokens_read_by_grammar "10.1.2.3/8".toList
  obtain ⟨p, hp⟩ := hentries.2 ⟨_, _, hprefix⟩
  obtain ⟨hlength, hbits⟩ := hentry p _ _ hp hprefix
  obtain ⟨-, -, -, hrules, hvalues, -⟩ := tokens_read_by_grammar "10.1.2.3:7".toList
  obtain ⟨r, hr⟩ := hrules.2 ⟨_, _, hrule⟩
  obtain ⟨-, -, hinterval⟩ := hvalues r _ _ hr hrule
  obtain ⟨-, -, hlengthFault, -⟩ := tokens_read_by_grammar "10.1.2.3/08".toList
  obtain ⟨-, hlong, -⟩ := hlengthFault ⟨.invalidLength, "10.1.2.3/08"⟩ (by rfl)
  obtain ⟨-, -, -, -, -, hrateFault⟩ := tokens_read_by_grammar "10.1.2.3:0".toList
  obtain ⟨-, hzero, -⟩ := hrateFault ⟨.invalidRate, "10.1.2.3:0"⟩ (by rfl)
  refine ⟨⟨p, hp, hlength, ?_, ?_⟩, hlong, ⟨r, hr, hinterval⟩, hzero⟩
  · rw [hbits]
    rfl
  · rw [hbits]
    rfl

end SourceFilter
