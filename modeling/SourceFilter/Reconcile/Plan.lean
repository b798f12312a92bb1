import SourceFilter.Reconcile.Book

/-!
# Plans

A plan lists the changes that lead from what is live to what is configured. Removals come before
additions, so a full table makes room first; additions come before changed rates; the blacklist
comes before the rate rules, and the generation number comes last. A part that the configuration
does not mention is left alone.
-/

namespace SourceFilter

/-- Why a configuration is turned down as a whole. -/
inductive ConfigError where
  /-- There is no interface in it. -/
  | missingInterface
  /-- It names another interface than the bound one. -/
  | interfaceChange (bound requested : String)
  deriving DecidableEq, Repr

/-- The error in words. -/
def ConfigError.message : ConfigError → String
  | .missingInterface => "config must contain 'interface='"
  | .interfaceChange bound requested =>
    "changing interface from '" ++ bound ++ "' to '" ++ requested ++
      "' is not supported, restart required"

/-- The number after this one; the greatest number of 64 bits stays. -/
def successor (n : UInt64) : UInt64 := if n.toNat + 1 < UInt64.size then n + 1 else n

/-- The generation number of the next pass: the clock, or the successor of the previous number
where the clock is behind. -/
def nextGeneration (clock previous : UInt64) : UInt64 := max clock (successor previous)

namespace Book

/-- The interface that a configuration is for, and whether it is the first one. -/
def interfaceFor (book : Book) (config : Config) : Except ConfigError (String × Bool) :=
  match config.interface, book.interface with
  | none, _ => .error .missingInterface
  | some requested, none => .ok (requested, true)
  | some requested, some bound =>
    if bound = requested then .ok (requested, false)
    else .error (.interfaceChange bound requested)

/-- The changes that lead to a configured blacklist. -/
def blacklistChanges (book : Book) (blacklist : Blacklist) : List Change :=
  let difference := book.blacklist.difference blacklist
  difference.removed.map .unblock ++ difference.added.map .block

/-- The changes that lead to configured rate rules. -/
def rateRuleChanges (book : Book) (rateRules : RateRules) : List Change :=
  let difference := book.rateRules.difference rateRules
  difference.removed.map .unlimit ++ difference.added.map .limit ++
    difference.changed.map .revise

/-- The changes of a pass, in order. -/
def plan (book : Book) (clock : UInt64) (config : Config) : List Change :=
  (config.blacklist.map book.blacklistChanges).getD [] ++
    (config.rateRules.map book.rateRuleChanges).getD [] ++
    [.stamp (nextGeneration clock book.generation)]

end Book
end SourceFilter
