import SourceFilter.Json

/-!
# Faults in configuration entries

A list entry that cannot be read is skipped, and a warning tells which entry it was and what is
wrong with it.
-/

namespace SourceFilter

/-- What is wrong with a list entry. -/
inductive EntryFault where
  /-- The part that should be an address is none. -/
  | invalidAddress
  /-- The part behind the slash is no prefix length. -/
  | invalidLength
  /-- There is no colon between source and rate. -/
  | malformedRule
  /-- The part behind the colon is no positive number of 32 bits. -/
  | invalidRate
  deriving DecidableEq, Repr

/-- The name of a fault in reports. -/
def EntryFault.name : EntryFault → String
  | .invalidAddress => "invalid_address"
  | .invalidLength => "invalid_prefix_length"
  | .malformedRule => "malformed_rate_limit"
  | .invalidRate => "invalid_rate"

/-- A skipped entry. -/
structure Warning where
  /-- What is wrong with it. -/
  fault : EntryFault
  /-- The entry as it was written. -/
  token : String
  deriving DecidableEq, Repr

namespace Warning

/-- The warning in words. -/
def message (w : Warning) : String :=
  match w.fault with
  | .invalidAddress => "invalid IP address in '" ++ w.token ++ "'"
  | .invalidLength => "invalid prefix length in '" ++ w.token ++ "'"
  | .malformedRule => "rate limit '" ++ w.token ++ "' is not in ip:pps form"
  | .invalidRate => "packets per second must be a positive integer in '" ++ w.token ++ "'"

/-- The warning as a document. -/
def toJson (w : Warning) : Json :=
  .object [("kind", .string w.fault.name), ("token", .string w.token)]

end Warning
end SourceFilter
