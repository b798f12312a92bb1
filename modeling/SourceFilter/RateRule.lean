import SourceFilter.Address

/-!
# Rate rules

A rule allows one source a number of packets per second. It is enforced as a least interval
between two admitted packets, so the gate has to remember only the time of the last one.
-/

namespace SourceFilter

/-- A positive number of packets per second. -/
structure Rate where
  /-- Packets per second. -/
  perSecond : UInt32
  /-- A rate of zero would never admit a packet. -/
  positive : 0 < perSecond
  deriving DecidableEq, Repr

namespace Rate

/-- The rate with this many packets per second, if that is positive and fits 32 bits. -/
def of? (perSecond : Nat) : Option Rate :=
  if h : 0 < perSecond ∧ perSecond < UInt32.size then
    some ⟨UInt32.ofNatLT perSecond h.2, by
      rw [UInt32.lt_iff_toNat_lt, UInt32.toNat_ofNatLT]; exact h.1⟩
  else none

/-- Nanoseconds in a second. -/
def second : UInt64 := 1000000000

/-- The least time between two admitted packets, in whole nanoseconds. -/
def interval (r : Rate) : UInt64 := second / r.perSecond.toUInt64

/-- The interval is the quotient, rounded down. -/
theorem toNat_interval (r : Rate) : r.interval.toNat = 1000000000 / r.perSecond.toNat := by
  simp [interval, second, UInt64.toNat_div]

end Rate

/-- One source and the rate it is held to. -/
structure RateRule where
  /-- The source that the rule is about. -/
  source : Address
  /-- How many packets per second it may send. -/
  rate : Rate
  deriving DecidableEq, Repr

namespace RateRule

/-- The position of a rule in the order by source. -/
def rank (r : RateRule) : Nat := r.source.toNat

/-- The rule as its source, a colon and its rate, as characters. -/
def chars (r : RateRule) : List Char :=
  r.source.chars ++ ':' :: Text.digits r.rate.perSecond.toNat

/-- The rule as its source, a colon and its rate. -/
def text (r : RateRule) : String := String.ofList r.chars

end RateRule

/-- What the gate says to a packet. -/
inductive Admission where
  /-- A full interval has passed. -/
  | admitted
  /-- The packet comes too early. -/
  | rejected
  deriving DecidableEq, Repr

/-- Admits a packet when a full interval has passed since the last admitted one. A packet that is
older than the last admitted one counts as arriving at the same time. -/
def gate (interval last now : UInt64) : Admission :=
  if interval.toNat ≤ now.toNat - last.toNat then .admitted else .rejected

end SourceFilter
