import SourceFilter.Prefix
import SourceFilter.RateRule
import SourceFilter.Statistics

/-!
# Stores

A store holds what the filter enforces: blocked prefixes, rate rules and a generation number. It
is changed by mutations, each of which either takes effect or is refused with the store as it was.
A store also counts packets. A guarded store refuses the mutations that a predicate picks before
they reach it.
-/

namespace SourceFilter

/-- The parts of a store, as errors name them. -/
inductive StorePart where
  | blacklist
  | rateRules
  | generation
  | sourceTallies
  | totals
  deriving DecidableEq, Repr

/-- The name of a part in errors. -/
def StorePart.name : StorePart → String
  | .blacklist => "blacklist"
  | .rateRules => "rate_limits"
  | .generation => "generation"
  | .sourceTallies => "ip_stats"
  | .totals => "global_stats"

/-- Why a store did not do what it was asked. -/
inductive StoreError where
  /-- There is no room for one more entry. -/
  | full (part : StorePart) (capacity : Nat)
  /-- The operation failed for another reason. -/
  | failed (part : StorePart) (reason : String)
  deriving DecidableEq, Repr

/-- The error in words. -/
def StoreError.message : StoreError → String
  | .full part capacity => part.name ++ " table is full (" ++ Text.decimal capacity ++ " entries)"
  | .failed part reason => part.name ++ " map operation failed: " ++ reason

/-- A change that a store is asked to make. -/
inductive Mutation where
  /-- Blocks a prefix; a blocked one stays blocked. -/
  | block (p : Prefix)
  /-- Unblocks a prefix; an absent one stays absent. -/
  | unblock (p : Prefix)
  /-- Sets the rule of a source. -/
  | limit (r : RateRule)
  /-- Drops the rule of a source; without a rule, nothing happens. -/
  | unlimit (source : Address)
  /-- Sets the generation number. -/
  | stamp (generation : UInt64)
  deriving DecidableEq, Repr

namespace Mutation

/-- The part of the store that the mutation is about. -/
def part : Mutation → StorePart
  | .block _ | .unblock _ => .blacklist
  | .limit _ | .unlimit _ => .rateRules
  | .stamp _ => .generation

end Mutation

/-- A type of stores that can be asked for mutations. -/
class Store (σ : Type) where
  /-- Tries a mutation: whether it took effect, and the store afterwards. -/
  perform : Mutation → σ → Except StoreError Unit × σ

/-- A type of stores that count packets. -/
class Counter (σ : Type) where
  /-- The packets of all sources. -/
  totals : σ → Except StoreError Tally
  /-- The packets of each source that has a record, in no particular order. -/
  sources : σ → Except StoreError (List SourceTally)

/-- Reads all counts of a store and reports on them. -/
def Statistics.collect {σ : Type} [Counter σ] (store : σ) : Except StoreError Statistics := do
  let totals ← Counter.totals store
  let tallies ← Counter.sources store
  return ofTallies totals tallies

/-- A store behind a guard that turns some requests away. -/
structure Guarded (σ : Type) where
  /-- The store. -/
  store : σ
  /-- The mutations that are refused. -/
  refuses : Mutation → Bool
  /-- The parts that cannot be read. -/
  hides : StorePart → Bool
  /-- The reason given for every request that is turned away. -/
  reason : String

namespace Guarded

variable {σ : Type}

/-- The error for a request about a part that was turned away. -/
def refusal (g : Guarded σ) (part : StorePart) : StoreError := .failed part g.reason

instance [Store σ] : Store (Guarded σ) where
  perform m g :=
    if g.refuses m then (.error (g.refusal m.part), g)
    else
      let (outcome, store) := Store.perform m g.store
      (outcome, { g with store := store })

instance [Counter σ] : Counter (Guarded σ) where
  totals g := if g.hides .totals then .error (g.refusal .totals) else Counter.totals g.store
  sources g :=
    if g.hides .sourceTallies then .error (g.refusal .sourceTallies)
    else Counter.sources g.store

end Guarded
end SourceFilter
