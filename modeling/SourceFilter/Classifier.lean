import SourceFilter.Tables

/-!
# Judging packets

A packet of a source with a rule is dropped when the gate rejects it. A packet that the gate lets
through, or does not see, is dropped when a blocked prefix holds its source. All others pass. Each
packet is counted, for its source as long as there is room for one more source. A frame that does
not carry a complete IPv4 header passes uncounted.
-/

namespace SourceFilter

/-- What becomes of a packet. -/
inductive Verdict where
  | pass
  | drop
  deriving DecidableEq, Repr

/-- One packet more with the given verdict. -/
def Tally.count (verdict : Verdict) (t : Tally) : Tally :=
  match verdict with
  | .drop => { t with dropped := t.dropped + 1 }
  | .pass => { t with passed := t.passed + 1 }

namespace Tables

variable {capacity : Nat}

/-- Counts a packet of a source, whose record was made before if there was room. -/
def record (t : Tables capacity) (source : Address) (verdict : Verdict) : Tables capacity :=
  { t with
    totals := t.totals.count verdict
    tallies := t.tallies.modify source.toNat (Tally.count verdict) }

/-- The gate's answer about a packet; a source without a rule is not asked about. -/
def admission (t : Tables capacity) (source : Address) (now : UInt64) :
    Admission × Tables capacity :=
  match t.interval? source with
  | none => (.admitted, t)
  | some interval =>
    let (admission, stamps) := Stamps.judge t.stamps interval source now
    (admission, { t with stamps := stamps })

/-- Judges a packet of a source that arrives at a time, and counts it. -/
def classify (t : Tables capacity) (source : Address) (now : UInt64) : Verdict × Tables capacity :=
  let t := { t with tallies := (t.tallies.claim source.toNat id).2 }
  let (admission, t) := t.admission source now
  let verdict : Verdict :=
    if admission = .rejected then .drop
    else if (t.longestMatch source).isSome then .drop
    else .pass
  (verdict, t.record source verdict)

end Tables

namespace Frame

/-- Bytes of an Ethernet header and the shortest IPv4 header behind it. -/
def shortest : Nat := 34

/-- Where the type of the content starts. -/
def typeOffset : Nat := 12

/-- The type of content that IPv4 has. -/
def ipv4Type : List UInt8 := [0x08, 0x00]

/-- Where the source address starts, counted from the start of the frame. -/
def sourceOffset : Nat := 26

/-- The source address of an Ethernet frame that carries IPv4. -/
def source? (frame : List UInt8) : Option Address :=
  if frame.length < shortest then none
  else if (frame.drop typeOffset).take 2 ≠ ipv4Type then none
  else
    match (frame.drop sourceOffset).take 4 with
    | [a, b, c, d] => some (Address.ofOctets a.toNat b.toNat c.toNat d.toNat)
    | _ => none

end Frame

/-- Judges a frame that arrives at a time. -/
def Tables.classifyFrame {capacity : Nat} (t : Tables capacity) (frame : List UInt8)
    (now : UInt64) : Verdict × Tables capacity :=
  match Frame.source? frame with
  | none => (.pass, t)
  | some source => t.classify source now

end SourceFilter
