import SourceFilter.Store
import Mathlib.Data.Finmap

/-!
# Rulesets

A ruleset is what a store enforces, without any regard to how it is kept: a finite set of blocked
prefixes, a finite map from sources to rates and a generation number. It is a store of its own, with
room for so many prefixes and so many sources. It refuses a new entry only when there is no room,
and a refused mutation changes nothing.
-/

namespace SourceFilter

/-- What a store enforces. -/
structure Ruleset (capacity : Nat) where
  /-- The blocked prefixes. -/
  blocked : Finset Prefix := ∅
  /-- The rates of the sources with a rule. -/
  rates : Finmap (fun _ : Address => Rate) := ∅
  /-- The generation number. -/
  generation : UInt64 := 0

namespace Ruleset

variable {capacity : Nat}

/-- Why a mutation is refused. An entry that is there already needs no room. -/
def refusal? (r : Ruleset capacity) : Mutation → Option StoreError
  | .block p =>
    if p ∈ r.blocked ∨ r.blocked.card < capacity then none else some (.full .blacklist capacity)
  | .limit rule =>
    if rule.source ∈ r.rates ∨ r.rates.keys.card < capacity then none
    else some (.full .rateRules capacity)
  | .unblock _ => none
  | .unlimit _ => none
  | .stamp _ => none

/-- The ruleset after a mutation that took effect. -/
def obey (r : Ruleset capacity) : Mutation → Ruleset capacity
  | .block p => { r with blocked := insert p r.blocked }
  | .unblock p => { r with blocked := r.blocked.erase p }
  | .limit rule => { r with rates := r.rates.insert rule.source rule.rate }
  | .unlimit source => { r with rates := r.rates.erase source }
  | .stamp generation => { r with generation := generation }

instance : Store (Ruleset capacity) where
  perform m r :=
    match r.refusal? m with
    | some e => (.error e, r)
    | none => (.ok (), r.obey m)

/-- A mutation that is not refused takes effect. -/
theorem perform_of_refusal?_eq_none {r : Ruleset capacity} {m : Mutation}
    (h : r.refusal? m = none) : Store.perform m r = (.ok (), r.obey m) := by
  simp only [Store.perform, h]

/-- A mutation that is refused changes nothing. -/
theorem perform_of_refusal?_eq_some {r : Ruleset capacity} {m : Mutation} {e : StoreError}
    (h : r.refusal? m = some e) : Store.perform m r = (.error e, r) := by
  simp only [Store.perform, h]

end Ruleset
end SourceFilter
