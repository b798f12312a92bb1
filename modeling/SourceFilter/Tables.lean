import SourceFilter.SlotTable.Loan
import SourceFilter.SlotTable.Removal
import SourceFilter.Store

/-!
# Filter tables in memory

The tables that packets are judged by: blocked prefixes, rate rules, times of the last admitted
packets, and counters. The blocked prefixes are filed under their keys; to find the longest one
that holds an address, the lengths that occur are tried from the longest to the shortest. For that
the tables count the blocked prefixes of each length, in 32 bits: a count wraps around at the last
one of 2^32 prefixes of a length.
-/

namespace SourceFilter

/-- When the last packet of a source was admitted. -/
structure Stamp where
  /-- The time in nanoseconds, or the greatest number for a record without a time. -/
  time : UInt64
  deriving DecidableEq, Repr

namespace Stamp

/-- The record without a time. -/
def unset : Stamp := ⟨UInt64.ofNat (UInt64.size - 1)⟩

instance : Inhabited Stamp := ⟨unset⟩

/-- Asks the gate, and notes the time of an admitted packet. -/
def consult (interval now : UInt64) (stamp : Stamp) : Admission × Stamp :=
  match gate interval stamp.time now with
  | .admitted => (.admitted, ⟨now⟩)
  | .rejected => (.rejected, stamp)

end Stamp

/-- The times of the last admitted packets. -/
abbrev Stamps (capacity : Nat) := SlotTable capacity Stamp

namespace Stamps

variable {capacity : Nat}

/-- Asks the gate about a packet of a source with a record; the record notes an admitted packet. -/
def consult? (stamps : Stamps capacity) (interval : UInt64) (source : Address) (now : UInt64) :
    Option Admission × Stamps capacity :=
  match stamps.get? source.toNat with
  | none => (none, stamps)
  | some stamp =>
    let (admission, stamp) := stamp.consult interval now
    (some admission, stamps.modify source.toNat fun _ => stamp)

/-- Judges a packet of a source with a rule. The first packet is admitted and starts the record.
When there is no room for one more record, packets without a record are admitted. -/
def judge (stamps : Stamps capacity) (interval : UInt64) (source : Address) (now : UInt64) :
    Admission × Stamps capacity :=
  match stamps.claim source.toNat fun _ => ⟨now⟩ with
  | (.found, stamps) =>
    let (admission, stamps) := Stamps.consult? stamps interval source now
    (admission.getD .admitted, stamps)
  | (_, stamps) => (.admitted, stamps)

end Stamps

/-- The tables, each with room for `capacity` entries. -/
structure Tables (capacity : Nat) where
  /-- The keys of the blocked prefixes. -/
  blocked : SlotTable capacity Unit
  /-- How many blocked prefixes of each length there are. -/
  lengthCounts : Vector UInt32 33
  /-- Which lengths a search tries. -/
  lengths : Vector Bool 33
  /-- The rates of the sources with a rule. -/
  rates : SlotTable capacity (Option Rate)
  /-- The last admitted packets of sources that had a rule. -/
  stamps : Stamps capacity
  /-- The packets of each source. -/
  tallies : SlotTable capacity Tally
  /-- The packets of all sources. -/
  totals : Tally
  /-- The generation number. -/
  generation : UInt64

namespace Tables

variable {capacity : Nat}

/-- Tables without entries. -/
def empty : Tables capacity where
  blocked := .empty
  lengthCounts := Vector.replicate 33 0
  lengths := Vector.replicate 33 false
  rates := .empty
  stamps := .empty
  tallies := .empty
  totals := {}
  generation := 0

/-- Blocks a prefix. Its length is made known first, and unknown again if there is no room. -/
def block (t : Tables capacity) (p : Prefix) : Except StoreError Unit × Tables capacity :=
  if t.blocked.contains p.key then (.ok (), t)
  else
    let lengths := t.lengths.set p.length true
    match t.blocked.put p.key id with
    | (.full, _) =>
      let lengths := if t.lengthCounts.get p.length = 0 then lengths.set p.length false else lengths
      (.error (.full .blacklist capacity), { t with lengths := lengths })
    | (_, blocked) =>
      (.ok (), { t with
        blocked := blocked
        lengths := lengths
        lengthCounts := t.lengthCounts.set p.length (t.lengthCounts.get p.length + 1) })

/-- One less than a count, or zero. -/
def oneLess (count : UInt32) : UInt32 := if count = 0 then 0 else count - 1

/-- Unblocks a prefix. The last one of its length makes the length unknown. -/
def unblock (t : Tables capacity) (p : Prefix) : Tables capacity :=
  match t.blocked.remove p.key with
  | (false, _) => t
  | (true, blocked) =>
    let count := oneLess (t.lengthCounts.get p.length)
    { t with
      blocked := blocked
      lengthCounts := t.lengthCounts.set p.length count
      lengths := if count = 0 then t.lengths.set p.length false else t.lengths }

/-- Sets the rule of a source. -/
def limit (t : Tables capacity) (r : RateRule) : Except StoreError Unit × Tables capacity :=
  match t.rates.put r.source.toNat fun _ => some r.rate with
  | (.full, _) => (.error (.full .rateRules capacity), t)
  | (_, rates) => (.ok (), { t with rates := rates })

/-- Drops the rule of a source. The time of its last admitted packet stays. -/
def unlimit (t : Tables capacity) (source : Address) : Tables capacity :=
  { t with rates := (t.rates.remove source.toNat).2 }

instance : Store (Tables capacity) where
  perform
    | .block p, t => t.block p
    | .unblock p, t => (.ok (), t.unblock p)
    | .limit r, t => t.limit r
    | .unlimit source, t => (.ok (), t.unlimit source)
    | .stamp generation, t => (.ok (), { t with generation := generation })

instance : Counter (Tables capacity) where
  totals t := .ok t.totals
  sources t := .ok (t.tallies.entries.map fun (key, tally) => ⟨BitVec.ofNat 32 key, tally⟩)

/-- The prefix lengths, the longest first. -/
def lengthsDescending : List (Fin 33) := (List.finRange 33).reverse

/-- The longest blocked prefix that holds an address. -/
def longestMatch (t : Tables capacity) (a : Address) : Option Prefix :=
  lengthsDescending.findSome? fun length =>
    let p := Prefix.around a length
    if t.lengths.get length && t.blocked.contains p.key then some p else none

/-- The least interval between packets of a source, if it has a rule. -/
def interval? (t : Tables capacity) (source : Address) : Option UInt64 :=
  (t.rates.get? source.toNat).map fun rate => (rate.map Rate.interval).getD 0

/-- When the last packet of a source was admitted. -/
def lastAdmitted? (t : Tables capacity) (source : Address) : Option UInt64 :=
  ((t.stamps.get? source.toNat).filter (· != Stamp.unset)).map Stamp.time

/-- The blocked prefixes in their order. -/
def blacklist (t : Tables capacity) : List Prefix :=
  let prefixes := t.blocked.entries.filterMap fun (key, _) => Prefix.ofKey? key
  prefixes.mergeSort fun p q => p.rank ≤ q.rank

/-- The rules in the order of their sources. -/
def rateRules (t : Tables capacity) : List RateRule :=
  let rules := t.rates.entries.filterMap fun (key, rate) =>
    rate.map (RateRule.mk (BitVec.ofNat 32 key))
  rules.mergeSort fun r s => r.rank ≤ s.rank

end Tables
end SourceFilter
