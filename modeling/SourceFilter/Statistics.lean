import SourceFilter.Address
import SourceFilter.Json
import SourceFilter.Text.Column

/-!
# Packet statistics

Packets are counted per source and over all sources. A report lists the sources that sent at least
one packet, the most dropped first; ties go to the source with more packets, then to the lower
address, so the order depends on the counts alone. The report is also written as a table of
aligned columns.
-/

namespace SourceFilter

/-- How many packets were dropped and how many passed. -/
structure Tally where
  /-- Dropped packets. -/
  dropped : UInt64 := 0
  /-- Passed packets. -/
  passed : UInt64 := 0
  deriving DecidableEq, Repr, Inhabited

namespace Tally

/-- All packets together; a sum beyond 64 bits counts as the greatest number of 64 bits. -/
def total (t : Tally) : Nat := min (t.dropped.toNat + t.passed.toNat) (UInt64.size - 1)

/-- The counts as a document. -/
def toJson (t : Tally) : Json :=
  .object [("dropped", .number t.dropped.toNat), ("passed", .number t.passed.toNat)]

end Tally

/-- The counts of one source. -/
structure SourceTally where
  /-- The source. -/
  source : Address
  /-- Its packets. -/
  tally : Tally
  deriving DecidableEq, Repr

namespace SourceTally

/-- Whether a source may stand before another one in a report. -/
def precedes (a b : SourceTally) : Bool :=
  b.tally.dropped.toNat < a.tally.dropped.toNat ||
    (a.tally.dropped == b.tally.dropped &&
      (b.tally.total < a.tally.total ||
        (a.tally.total == b.tally.total && a.source.toNat ≤ b.source.toNat)))

/-- The counts with their source as a document. -/
def toJson (s : SourceTally) : Json :=
  .object [("ip", .string s.source.text), ("dropped", .number s.tally.dropped.toNat),
    ("passed", .number s.tally.passed.toNat)]

end SourceTally

/-- A report on all counted packets. -/
structure Statistics where
  /-- The packets of all sources. -/
  totals : Tally
  /-- The sources with packets, in report order. -/
  entries : List SourceTally
  deriving DecidableEq, Repr

namespace Statistics

/-- The report on the given counts. -/
def ofTallies (totals : Tally) (tallies : List SourceTally) : Statistics where
  totals := totals
  entries := (tallies.filter fun s => 0 < s.tally.total).mergeSort SourceTally.precedes

/-- The first entries of the report. -/
def top (report : Statistics) (n : Nat) : List SourceTally := report.entries.take n

/-- The report as a document. -/
def toJson (report : Statistics) : Json :=
  .object [("totals", report.totals.toJson),
    ("entries", Json.ofList SourceTally.toJson report.entries)]

/-- The line about all packets, as characters. -/
def totalsChars (report : Statistics) : List Char :=
  "Total packets: ".toList ++ Text.digits report.totals.total ++
    " (Dropped: ".toList ++ Text.digits report.totals.dropped.toNat ++
    ", Passed: ".toList ++ Text.digits report.totals.passed.toNat ++ [')']

/-- The line about all packets. -/
def totalsLine (report : Statistics) : String := String.ofList report.totalsChars

/-- One row of the table: a wide column on the left and three narrower ones, two spaces apart. -/
def row (name dropped passed total : List Char) : List Char :=
  Text.alignLeft 15 name ++ [' ', ' '] ++ Text.alignRight 10 dropped ++ [' ', ' '] ++
    Text.alignRight 10 passed ++ [' ', ' '] ++ Text.alignRight 10 total

/-- The row of one source. -/
def entryRow (s : SourceTally) : List Char :=
  row s.source.chars (Text.digits s.tally.dropped.toNat) (Text.digits s.tally.passed.toNat)
    (Text.digits s.tally.total)

/-- The row that names the columns. -/
def headerRow : List Char := row "IP Address".toList "Dropped".toList "Passed".toList "Total".toList

/-- The line under the header, as wide as a row of narrow numbers. -/
def rule : List Char := List.replicate 51 '-'

/-- The lines of the table. -/
def tableLines (report : Statistics) : List (List Char) :=
  report.totalsChars ::
    if report.entries.isEmpty then ["No packet statistics recorded.".toList]
    else headerRow :: rule :: report.entries.map entryRow

/-- The table as a text; every line is ended. -/
def table (report : Statistics) : String :=
  String.ofList (report.tableLines.flatMap (· ++ ['\n']))

/-- The line about one source in a log. -/
def logLine (s : SourceTally) : String :=
  String.ofList ("  ".toList ++ Text.alignLeft 15 s.source.chars ++ " dropped=".toList ++
    Text.alignLeft 10 (Text.digits s.tally.dropped.toNat) ++ " passed=".toList ++
    Text.alignLeft 10 (Text.digits s.tally.passed.toNat))

end Statistics
end SourceFilter
