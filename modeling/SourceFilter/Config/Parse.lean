import SourceFilter.Config.Entry
import SourceFilter.Roster
import SourceFilter.Log

/-!
# Configuration texts

A configuration is a text of lines `key=value`. Blank lines and lines that start with `#` say
nothing; lines without an equals sign and lines with an unknown key are ignored. Of several lines
with the same key the last one counts, but every list line adds its warnings. A key that does not
occur leaves its part of the filter as it is, and a key with an empty list clears it.
-/

namespace SourceFilter

/-- The blacklisted prefixes, in their order. -/
abbrev Blacklist := Roster Prefix Prefix.rank

/-- At most one rate rule for each source, in the order of sources. -/
abbrev RateRules := Roster RateRule RateRule.rank

/-- What a configuration text says. -/
structure Config where
  /-- The interface to filter on. -/
  interface : Option String := none
  /-- The prefixes to block, if the text has a blacklist. -/
  blacklist : Option Blacklist := none
  /-- The rules to enforce, if the text has rate limits. -/
  rateRules : Option RateRules := none
  /-- The entries that were skipped, in the order of the text. -/
  warnings : List Warning := []

namespace Config

/-- The meaning of one line. -/
inductive Line where
  /-- Nothing but blanks, or a comment. -/
  | silent
  /-- No equals sign; the line without blanks around it. -/
  | stray (text : List Char)
  /-- A key that has no meaning here. -/
  | unknown (key : List Char)
  /-- The interface, possibly an empty name. -/
  | interface (name : List Char)
  /-- The list of blacklist entries. -/
  | blacklist (list : List Char)
  /-- The list of rate limits. -/
  | rateRules (list : List Char)
  deriving DecidableEq, Repr

/-- Reads one line. -/
def Line.read (line : List Char) : Line :=
  let line := Text.trim line
  if line.isEmpty || line.head? == some '#' then .silent
  else
    match Text.splitOnce '=' line with
    | none => .stray line
    | some (key, value) =>
      let key := Text.trim key
      let value := Text.trim value
      if key = "interface".toList then .interface value
      else if key = "ip_blacklist".toList then .blacklist value
      else if key = "ip_rate_limits".toList then .rateRules value
      else .unknown key

/-- Reads a list of blacklist entries; repeated entries count once. -/
def readBlacklist (list : List Char) : Blacklist × List Warning :=
  let (entries, warnings) := readEntries Prefix.parse list
  (Roster.ofList entries, warnings)

/-- Reads a list of rate limits; of several for one source the last one counts. -/
def readRateRules (list : List Char) : RateRules × List Warning :=
  let (entries, warnings) := readEntries RateRule.parse list
  (Roster.ofList entries, warnings)

/-- What a configuration says after one more line. -/
def absorb (config : Config) : Line → Config
  | .silent => config
  | .stray _ => config
  | .unknown _ => config
  | .interface name =>
    { config with interface := if name.isEmpty then none else some (String.ofList name) }
  | .blacklist list =>
    let (entries, warnings) := readBlacklist list
    { config with blacklist := some entries, warnings := config.warnings ++ warnings }
  | .rateRules list =>
    let (rules, warnings) := readRateRules list
    { config with rateRules := some rules, warnings := config.warnings ++ warnings }

/-- The lines of a text, each with its meaning. -/
def readLines (raw : String) : List Line := (Text.lines raw.toList).map Line.read

/-- Reads a configuration text. Every text can be read. -/
def parse (raw : String) : Config := (readLines raw).foldl absorb {}

/-- What is logged about a line while it is read. -/
def Line.event? : Line → Option Event
  | .stray text => some (.debug ("Ignoring config line without '=': " ++ String.ofList text))
  | .unknown key => some (.debug ("Ignoring unknown config key '" ++ String.ofList key ++ "'"))
  | _ => none

/-- What is logged while a text is read. -/
def parseEvents (raw : String) : List Event := (readLines raw).filterMap Line.event?

end Config
end SourceFilter
