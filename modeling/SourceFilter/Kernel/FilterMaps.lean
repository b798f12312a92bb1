import SourceFilter.Kernel.Calls
import SourceFilter.Log
import SourceFilter.Store

/-!
# The kernel's maps as a store

The running program enforces what its maps say. A blocked prefix is a key of its length and its
network; a rate rule is filed under its source with the rate and the interval; the generation is
the only cell of its array. What is read back is put in order, and entries that make no sense are
left out.
-/

namespace SourceFilter

namespace Kernel

/-- Where the blacklist files a prefix. -/
def prefixKey (p : Prefix) : Bytes := Bytes.ofNat 4 p.length ++ Bytes.ofAddress p.network

/-- What is filed under a blocked prefix. -/
def blockedMark : Bytes := [1]

/-- What is filed under the source of a rule. -/
def rateValue (rate : Rate) : Bytes :=
  Bytes.ofNat 4 rate.perSecond.toNat ++ Bytes.ofNat 4 0 ++ Bytes.ofNat 8 rate.interval.toNat

/-- The array cell that counts dropped packets. -/
def droppedCell : Nat := 0

/-- The array cell that counts passed packets. -/
def passedCell : Nat := 1

/-- The outcome of an operation, as an outcome on a part of the store. -/
def onPart {α β : Type} (part : StorePart) (outcome : Except MapError α × β) :
    Except StoreError α × β :=
  (outcome.1.mapError fun e => .failed part e.message, outcome.2)

/-- What was read, or the error on a part of the store. -/
def reading {α : Type} (part : StorePart) (outcome : Except MapError α) : Except StoreError α :=
  outcome.mapError fun e => .failed part e.message

instance : Store Kernel where
  perform m k :=
    onPart m.part <|
      match m with
      | .block p => k.update .blacklist (prefixKey p) blockedMark
      | .unblock p => k.discard .blacklist (prefixKey p)
      | .limit r => k.update .rateLimits (Bytes.ofAddress r.source) (rateValue r.rate)
      | .unlimit source => k.discard .rateLimits (Bytes.ofAddress source)
      | .stamp generation => k.writeCell .generation 0 generation

/-- The counts of one source as its map holds them. -/
def sourceTally (entry : Bytes × Bytes) : SourceTally where
  source := Bytes.toAddress entry.1
  tally :=
    { dropped := UInt64.ofNat (Bytes.toNat (entry.2.take 8))
      passed := UInt64.ofNat (Bytes.toNat (entry.2.drop 8)) }

instance : Counter Kernel where
  totals k := reading .totals do
    let dropped ← k.readCell .globalStats droppedCell
    let passed ← k.readCell .globalStats passedCell
    return { dropped := UInt64.ofNat dropped, passed := UInt64.ofNat passed }
  sources k := reading .sourceTallies do
    return (← k.entries .sourceStats).map sourceTally

/-- The generation number. -/
def generation (k : Kernel) : Except StoreError UInt64 :=
  reading .generation ((k.readCell .generation 0).map UInt64.ofNat)

/-- A key of the blacklist: its prefix, or the length that no prefix has. -/
def readPrefixKey (key : Bytes) : Except Nat Prefix :=
  let length := Bytes.toNat (key.take 4)
  match Prefix.of? (Bytes.toAddress (key.drop 4)) length with
  | some p => .ok p
  | none => .error length

/-- The blocked prefixes in their order. -/
def blacklist (k : Kernel) : Except StoreError (List Prefix) := do
  let keys ← reading .blacklist (k.keys .blacklist)
  let prefixes := keys.filterMap fun key => (readPrefixKey key).toOption
  return prefixes.mergeSort fun p q => p.rank ≤ q.rank

/-- What is logged while the blacklist is read. -/
def blacklistEvents (k : Kernel) : List Event :=
  match k.keys .blacklist with
  | .error _ => []
  | .ok keys => keys.filterMap fun key =>
    match readPrefixKey key with
    | .ok _ => none
    | .error length =>
      some (.warn ("Ignoring blacklist key with prefix length " ++ Text.decimal length))

/-- The rule that an entry stands for, if its rate is positive. -/
def rateRule? (entry : Bytes × Bytes) : Option RateRule :=
  (Rate.of? (Bytes.toNat (entry.2.take 4))).map (RateRule.mk (Bytes.toAddress entry.1))

/-- The rules in the order of their sources. -/
def rateRules (k : Kernel) : Except StoreError (List RateRule) := do
  let entries ← reading .rateRules (k.entries .rateLimits)
  return (entries.filterMap rateRule?).mergeSort fun r s => r.rank ≤ s.rank

/-- Sets one counter to zero. -/
def resetCell (k : Kernel) (cell : Nat) : Except Failure Unit × Kernel :=
  let (outcome, k) := k.writeCell .globalStats cell 0
  (outcome.mapError fun e =>
    e.failure.within ("Failed to reset global counter " ++ Text.decimal cell), k)

/-- Sets both counters of all packets to zero, up to the first that cannot be set. -/
def resetTotals (k : Kernel) : Except Failure Unit × Kernel :=
  match k.resetCell droppedCell with
  | (.ok _, k) => k.resetCell passedCell
  | failed => failed

end Kernel
end SourceFilter
