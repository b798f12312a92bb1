import SourceFilter.Config.Parse
import SourceFilter.Store

/-!
# What is known to be live

The book holds what a store is known to enforce: the blacklist, the rate rules and the generation
number as the successful changes left them, and the interface that the first pass was bound to. A
change is a mutation together with the reason for it, and the book learns of a change only when it
took effect.
-/

namespace SourceFilter

/-- A mutation and its reason. -/
inductive Change where
  /-- The prefix is no longer configured. -/
  | unblock (p : Prefix)
  /-- The prefix is newly configured. -/
  | block (p : Prefix)
  /-- The rule's source has no configured rule any more. -/
  | unlimit (r : RateRule)
  /-- The rule's source had no rule. -/
  | limit (r : RateRule)
  /-- The rule's source had a rule with another rate. -/
  | revise (r : RateRule)
  /-- The pass has a generation number. -/
  | stamp (generation : UInt64)
  deriving DecidableEq, Repr

namespace Change

/-- What a store is asked to do. -/
def mutation : Change → Mutation
  | .unblock p => .unblock p
  | .block p => .block p
  | .unlimit r => .unlimit r.source
  | .limit r => .limit r
  | .revise r => .limit r
  | .stamp generation => .stamp generation

/-- The part of the store that changes. -/
def part (c : Change) : StorePart := c.mutation.part

end Change

/-- What a store is known to hold. -/
structure Book where
  /-- The interface of the first pass. -/
  interface : Option String := none
  /-- The blocked prefixes. -/
  blacklist : Blacklist := .empty
  /-- The rules in force. -/
  rateRules : RateRules := .empty
  /-- The generation number. -/
  generation : UInt64 := 0

namespace Book

/-- The book after a change that took effect. -/
def learn (book : Book) : Change → Book
  | .unblock p => { book with blacklist := book.blacklist.erase p.rank }
  | .block p => { book with blacklist := book.blacklist.insert p }
  | .unlimit r => { book with rateRules := book.rateRules.erase r.rank }
  | .limit r => { book with rateRules := book.rateRules.insert r }
  | .revise r => { book with rateRules := book.rateRules.insert r }
  | .stamp generation => { book with generation := generation }

end Book
end SourceFilter
