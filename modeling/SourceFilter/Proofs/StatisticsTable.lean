import SourceFilter.Statistics
import SourceFilter.Proofs.Columns
import SourceFilter.Proofs.RoundTrip

/-!
# The table of statistics

Nothing is lost in the table: its lines, taken apart into words, give back the counts of all packets
and of every source. A number that is too wide for its column widens the line, and the columns stay
apart.
-/

namespace SourceFilter

open Text

namespace Address

/-- Different addresses are written differently. -/
theorem chars_injective : Function.Injective chars := by
  intro a b h
  have ha := parse?_eq_some_iff.2 a.written_chars
  rw [h, parse?_eq_some_iff.2 b.written_chars] at ha
  exact (Option.some.inj ha).symm

/-- An address takes at most fifteen characters. -/
theorem length_chars_le (a : Address) : a.chars.length ≤ 15 := by
  have hwidth {n : Nat} (hn : n ∈ a.octets) : (digits n).length ≤ 3 := by
    have hlt := lt_of_mem_octets hn
    exact (Nat.length_toDigits_le_iff (by decide) (by decide)).2 (by omega)
  simp only [octets, List.mem_cons, List.not_mem_nil, or_false, forall_eq_or_imp, forall_eq]
    at hwidth
  simp only [chars, octets, List.map_cons, List.map_nil, join, List.length_append,
    List.length_cons]
  omega

/-- An address is a word. -/
theorem words_chars (a : Address) : words a.chars = [a.chars] := by
  have hspace : ' ' ∉ a.chars := a.written_chars.notMem (by decide) (by decide)
  refine words_of_notMem ?_ hspace
  rw [chars, octets, List.map_cons, List.map_cons, join]
  exact List.append_ne_nil_of_right_ne_nil _ (List.cons_ne_nil _ _)

end Address

/-- Different counts have a number that is written differently. -/
theorem Tally.eq_of_digits {a b : Tally}
    (hdropped : digits a.dropped.toNat = digits b.dropped.toNat)
    (hpassed : digits a.passed.toNat = digits b.passed.toNat) : a = b := by
  obtain ⟨dropped, passed⟩ := a
  obtain ⟨dropped', passed'⟩ := b
  obtain rfl := UInt64.toNat_inj.1 (digits_injective hdropped)
  obtain rfl := UInt64.toNat_inj.1 (digits_injective hpassed)
  rfl

namespace Statistics

variable {report other : Statistics} {s : SourceTally} {c : Char}

/-- The words of a row are those of its fields. -/
theorem words_row (name dropped passed total : List Char) :
    words (row name dropped passed total) =
      words name ++ words dropped ++ words passed ++ words total := by
  have hgap (xs ys : List Char) : words (xs ++ [' ', ' '] ++ ys) = words xs ++ words ys := by
    have hspaces := words_spaces_append 1 ys
    rw [List.append_assoc]
    exact (words_append_space xs _).trans (congrArg _ hspaces)
  rw [row, hgap, hgap, hgap, words_alignLeft, words_alignRight, words_alignRight,
    words_alignRight]

/-- What is no space and in no field does not occur in a row. -/
theorem notMem_row {name dropped passed total : List Char} (hc : c ≠ ' ')
    (h : c ∉ name ∧ c ∉ dropped ∧ c ∉ passed ∧ c ∉ total) : c ∉ row name dropped passed total := by
  simp only [row, List.mem_append, (mem_align hc _ _).1, (mem_align hc _ _).2, List.mem_cons,
    List.not_mem_nil, or_false, not_or]
  tauto

/-- A row is as wide as its columns with their gaps. -/
theorem length_row (name dropped passed total : List Char) :
    (row name dropped passed total).length =
      max 15 name.length + 2 + max 10 dropped.length + 2 + max 10 passed.length + 2 +
        max 10 total.length := by
  simp only [row, List.length_append, length_alignLeft, length_alignRight, List.length_cons,
    List.length_nil]

/-- The words of the row of a source are its address and its three numbers. -/
theorem words_entryRow (s : SourceTally) :
    words (entryRow s) = [s.source.chars, digits s.tally.dropped.toNat,
      digits s.tally.passed.toNat, digits s.tally.total] := by
  rw [entryRow, words_row, Address.words_chars, words_digits, words_digits, words_digits]
  rfl

/-- The row of a source is as wide as the header, but for the digits that do not fit. -/
theorem length_entryRow (s : SourceTally) :
    (entryRow s).length = 51 + ((digits s.tally.dropped.toNat).length - 10) +
      ((digits s.tally.passed.toNat).length - 10) + ((digits s.tally.total).length - 10) := by
  have haddress := s.source.length_chars_le
  rw [entryRow, length_row]
  omega

/-- A number fits into its column when it has at most ten digits. -/
theorem length_digits_le_iff (n : Nat) : (digits n).length ≤ 10 ↔ n < 10000000000 :=
  Nat.length_toDigits_le_iff (by decide) (by decide)

/-- Different counts have different rows. -/
theorem entryRow_injective : Function.Injective entryRow := by
  intro a b h
  have hwords := congrArg words h
  rw [words_entryRow, words_entryRow] at hwords
  simp only [List.cons.injEq] at hwords
  obtain ⟨hsource, hdropped, hpassed, -⟩ := hwords
  obtain ⟨source, tally⟩ := a
  obtain ⟨source', tally'⟩ := b
  obtain rfl := Address.chars_injective hsource
  obtain rfl := Tally.eq_of_digits hdropped hpassed
  rfl

/-- The words of the line about all packets. -/
def totalsWords (report : Statistics) : List (List Char) :=
  ["Total".toList, "packets:".toList, digits report.totals.total, "(Dropped:".toList,
    digits report.totals.dropped.toNat ++ [','], "Passed:".toList,
    digits report.totals.passed.toNat ++ [')']]

/-- The line about all packets has these words. -/
theorem words_totalsChars (report : Statistics) :
    words report.totalsChars = report.totalsWords := by
  -- the labels stay variables here, since matching inside of string literals takes too long
  have hjoined (a b c d total dropped passed : List Char) :
      a ++ ' ' :: (b ++ [' ']) ++ total ++ ' ' :: (c ++ [' ']) ++ dropped ++
        ',' :: ' ' :: (d ++ [' ']) ++ passed ++ [')'] =
        join ' ' [a, b, total, c, dropped ++ [','], d, passed ++ [')']] := by
    simp only [join, List.append_assoc, List.cons_append, List.nil_append]
  have hline : report.totalsChars = join ' ' report.totalsWords :=
    hjoined "Total".toList "packets:".toList "(Dropped:".toList "Passed:".toList _ _ _
  have hmarked (n : Nat) (mark : Char) (hmark : mark ≠ ' ') :
      digits n ++ [mark] ≠ [] ∧ ' ' ∉ digits n ++ [mark] := by
    refine ⟨List.concat_ne_nil mark _, fun h => ?_⟩
    rcases List.mem_append.1 h with h | h
    · exact notMem_digits (by decide) n h
    · exact hmark (List.mem_singleton.1 h).symm
  rw [hline]
  apply words_join
  simp only [totalsWords, List.mem_cons, List.not_mem_nil, or_false, forall_eq_or_imp, forall_eq]
  exact ⟨by decide, by decide, ⟨Nat.toDigits_ne_nil, notMem_digits (by decide) _⟩, by decide,
    hmarked _ ',' (by decide), by decide, hmarked _ ')' (by decide)⟩

/-- Different totals are written in different lines. -/
theorem totals_eq_of_totalsChars_eq (h : report.totalsChars = other.totalsChars) :
    report.totals = other.totals := by
  have hwords := congrArg words h
  rw [words_totalsChars, words_totalsChars, totalsWords, totalsWords] at hwords
  simp only [List.cons.injEq, List.append_cancel_right_eq] at hwords
  obtain ⟨-, -, -, -, hdropped, -, hpassed, -⟩ := hwords
  exact Tally.eq_of_digits hdropped hpassed

/-- No line of the table has a line end in it. -/
theorem notMem_of_mem_tableLines {line : List Char} (hline : line ∈ report.tableLines)
    (hc : c = '\n' ∨ c = '\r') : c ∉ line := by
  obtain ⟨hdigit, hpoint, hspace⟩ : c.isDigit = false ∧ c ≠ '.' ∧ c ≠ ' ' := by
    rcases hc with rfl | rfl <;> decide
  obtain ⟨hpackets, hdropped, hpassed, hlast, hnothing⟩ :
      c ∉ "Total packets: ".toList ∧ c ∉ " (Dropped: ".toList ∧ c ∉ ", Passed: ".toList ∧
        c ∉ [')'] ∧ c ∉ "No packet statistics recorded.".toList := by
    rcases hc with rfl | rfl <;> decide
  have hfixed : c ∉ headerRow ∧ c ∉ rule := by rcases hc with rfl | rfl <;> decide
  rw [tableLines, List.mem_cons] at hline
  rcases hline with rfl | hline
  · have hlabelled {front label : List Char} (n : Nat) (hfront : c ∉ front) (hlabel : c ∉ label) :
        c ∉ front ++ digits n ++ label :=
      List.not_mem_append (List.not_mem_append hfront (notMem_digits hdigit n)) hlabel
    exact hlabelled _ (hlabelled _ (hlabelled _ hpackets hdropped) hpassed) hlast
  · split at hline
    next =>
      rw [List.mem_singleton.1 hline]
      exact hnothing
    next =>
      rw [List.mem_cons, List.mem_cons, List.mem_map] at hline
      rcases hline with rfl | rfl | ⟨s, -, rfl⟩
      · exact hfixed.1
      · exact hfixed.2
      · exact notMem_row hspace ⟨s.source.written_chars.notMem hdigit hpoint,
          notMem_digits hdigit _, notMem_digits hdigit _, notMem_digits hdigit _⟩

/-- The lines of the text are those of the table. -/
theorem lines_table (report : Statistics) : lines report.table.toList = report.tableLines := by
  rw [table, String.toList_ofList]
  exact lines_flatMap fun line hline =>
    ⟨notMem_of_mem_tableLines hline (.inl rfl), notMem_of_mem_tableLines hline (.inr rfl)⟩

/-- Without entries there is a line that says so behind the one about all packets. -/
theorem tableLines_of_nil (h : report.entries = []) :
    report.tableLines = [report.totalsChars, "No packet statistics recorded.".toList] := by
  rw [tableLines, h]
  rfl

/-- With entries there are a header and a rule before them. -/
theorem tableLines_of_ne_nil (h : report.entries ≠ []) :
    report.tableLines =
      report.totalsChars :: headerRow :: rule :: report.entries.map entryRow := by
  rw [tableLines, if_neg (mt List.isEmpty_iff.1 h)]

/-- Different reports have different tables. -/
theorem table_injective : Function.Injective table := by
  intro a b h
  have hlines : a.tableLines = b.tableLines := by
    rw [← lines_table, h, lines_table]
  have htotals : a.totals = b.totals := by
    rw [tableLines, tableLines, List.cons.injEq] at hlines
    exact totals_eq_of_totalsChars_eq hlines.1
  have hentries : a.entries = b.entries := by
    by_cases ha : a.entries = [] <;> by_cases hb : b.entries = []
    · rw [ha, hb]
    · rw [tableLines_of_nil ha, tableLines_of_ne_nil hb] at hlines
      simp only [List.cons.injEq, reduceCtorEq, and_false] at hlines
    · rw [tableLines_of_ne_nil ha, tableLines_of_nil hb] at hlines
      simp only [List.cons.injEq, reduceCtorEq, and_false] at hlines
    · rw [tableLines_of_ne_nil ha, tableLines_of_ne_nil hb] at hlines
      simp only [List.cons.injEq, true_and] at hlines
      exact entryRow_injective.list_map hlines.2
  obtain ⟨totals, entries⟩ := a
  obtain ⟨totals', entries'⟩ := b
  obtain rfl : totals = totals' := htotals
  obtain rfl : entries = entries' := hentries
  rfl

/-- The row of a source is as wide as the header exactly when its numbers fit. -/
theorem length_entryRow_eq_iff (s : SourceTally) : (entryRow s).length = 51 ↔
    s.tally.dropped.toNat < 10000000000 ∧ s.tally.passed.toNat < 10000000000 ∧
      s.tally.total < 10000000000 := by
  rw [length_entryRow, ← length_digits_le_iff, ← length_digits_le_iff, ← length_digits_le_iff]
  omega

/-- The table loses nothing. No other report has the same text. It has two lines without entries,
and else one for each entry behind a line about all packets, a header and a rule. The words in the
line of an entry are its address, its two numbers and their sum up to 64 bits. The line is as wide
as the header and the rule exactly when each of the three has at most ten digits, and wider by the
digits beyond ten. -/
theorem table_loses_nothing (report : Statistics) :
    let lines := Text.lines report.table.toList
    (∀ other : Statistics, other.table = report.table →
      other.totals = report.totals ∧ other.entries = report.entries) ∧
    lines.length = (if report.entries = [] then 2 else 3 + report.entries.length) ∧
    (report.entries ≠ [] → lines.take 3 = [report.totalsChars, headerRow, rule] ∧
      headerRow.length = 51 ∧ rule.length = 51) ∧
    ∀ i s, report.entries[i]? = some s → ∃ line, lines[3 + i]? = some line ∧
      Text.words line = [s.source.chars, Text.digits s.tally.dropped.toNat,
        Text.digits s.tally.passed.toNat, Text.digits s.tally.total] ∧
      (line.length = 51 ↔ s.tally.dropped.toNat < 10000000000 ∧ s.tally.passed.toNat < 10000000000 ∧
        s.tally.total < 10000000000) ∧
      line.length = 51 + ((Text.digits s.tally.dropped.toNat).length - 10) +
        ((Text.digits s.tally.passed.toNat).length - 10) +
        ((Text.digits s.tally.total).length - 10) := by
  intro lines
  have hlines : lines = report.tableLines := lines_table report
  refine ⟨fun other htable => ?_, ?_, fun hentries => ?_, fun i s hs => ?_⟩
  · obtain rfl := table_injective htable
    exact ⟨rfl, rfl⟩
  · rw [hlines]
    split
    next hentries => rw [tableLines_of_nil hentries, List.length_cons, List.length_singleton]
    next hentries =>
      rw [tableLines_of_ne_nil hentries, List.length_cons, List.length_cons, List.length_cons,
        List.length_map]
      omega
  · refine ⟨?_, by decide, by decide⟩
    rw [hlines, tableLines_of_ne_nil hentries]
    rfl
  · have hentries : report.entries ≠ [] := by
      rintro hnil
      rw [hnil] at hs
      cases hs
    refine ⟨entryRow s, ?_, words_entryRow s, length_entryRow_eq_iff s, length_entryRow s⟩
    rw [hlines, tableLines_of_ne_nil hentries, Nat.add_comm, List.getElem?_cons_succ,
      List.getElem?_cons_succ, List.getElem?_cons_succ, List.getElem?_map, hs]
    rfl

/-- The greatest numbers widen their line by twice ten digits; the words in it are the same as those
of any other. -/
theorem table_of_greatest_numbers_loses_nothing :
    let wide : SourceTally := ⟨Address.ofOctets 10 0 0 1, ⟨18446744073709551615, 1⟩⟩
    let narrow : SourceTally := ⟨Address.ofOctets 255 255 255 255, ⟨0, 9999999999⟩⟩
    let report : Statistics := ⟨{}, [wide, narrow]⟩
    let lines := Text.lines report.table.toList
    report.entries[0]? = some wide ∧ report.entries[1]? = some narrow ∧ lines.length = 5 ∧
      (∃ line, lines[3]? = some line ∧ line.length = 71 ∧
        Text.words line = ["10.0.0.1".toList, "18446744073709551615".toList, "1".toList,
          "18446744073709551615".toList]) ∧
      ∃ line, lines[4]? = some line ∧ line.length = 51 := by
  intro wide narrow report lines
  obtain ⟨-, hlength, -, hrows⟩ := table_loses_nothing report
  have hwide : report.entries[0]? = some wide := rfl
  have hnarrow : report.entries[1]? = some narrow := rfl
  obtain ⟨line, hline, hwords, -, hwidth⟩ := hrows 0 wide hwide
  obtain ⟨line', hline', -, hfits, -⟩ := hrows 1 narrow hnarrow
  refine ⟨hwide, hnarrow, hlength, ⟨line, hline, ?_, ?_⟩, line', hline', hfits.2 (by decide)⟩
  · rw [hwidth]
    decide
  · rw [hwords]
    decide

end Statistics
end SourceFilter
