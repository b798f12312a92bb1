import SourceFilter.Config.Warning
import SourceFilter.Prefix
import SourceFilter.RateRule
import SourceFilter.Text.Blank

/-!
# Configuration entries

A blacklist entry is an address, or an address and a prefix length with a slash between them. A
rate limit is an address and a rate with a colon between them. Numbers are canonical numerals. The
first fault from the left decides what is reported.
-/

namespace SourceFilter

/-- Reads a blacklist entry; an address alone stands for itself. -/
def Prefix.parse (token : List Char) : Except EntryFault Prefix :=
  let (address, length) :=
    match Text.splitOnce '/' token with
    | none => (token, none)
    | some (address, length) => (address, some length)
  match Address.parse? address with
  | none => .error .invalidAddress
  | some a =>
    match length with
    | none => .ok (Prefix.host a)
    | some length =>
      match (Text.canonical? length).bind (Prefix.of? a) with
      | none => .error .invalidLength
      | some p => .ok p

/-- Reads a rate limit. -/
def RateRule.parse (token : List Char) : Except EntryFault RateRule :=
  match Text.splitOnce ':' token with
  | none => .error .malformedRule
  | some (address, perSecond) =>
    match Address.parse? address with
    | none => .error .invalidAddress
    | some source =>
      match (Text.canonical? perSecond).bind Rate.of? with
      | none => .error .invalidRate
      | some rate => .ok ⟨source, rate⟩

/-- The entries of a list: the pieces between commas, without blanks around them, less the empty
ones. -/
def listTokens (list : List Char) : List (List Char) :=
  ((Text.split ',' list).map Text.trim).filter fun token => !token.isEmpty

/-- Reads every entry of a list: those that can be read, and a warning for each other one. -/
def readEntries {α : Type} (parse : List Char → Except EntryFault α) (list : List Char) :
    List α × List Warning :=
  (listTokens list).foldr
    (fun token (entries, warnings) =>
      match parse token with
      | .ok entry => (entry :: entries, warnings)
      | .error fault => (entries, ⟨fault, String.ofList token⟩ :: warnings))
    ([], [])

end SourceFilter
