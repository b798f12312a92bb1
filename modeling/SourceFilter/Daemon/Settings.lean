import SourceFilter.CommandLine
import SourceFilter.Log

/-!
# Settings of the daemon

The daemon is set up by its command line. Every setting has a default; the place of the
configuration file defaults to a file beside the executable.
-/

namespace SourceFilter

/-- What the command line of the daemon says. -/
structure Settings where
  /-- The configuration file, if it is not the default one. -/
  config : Option String := none
  /-- The object file with the filter program. -/
  object : String := "target/bpfel-unknown-none/release/ipfilter"
  /-- Where the statistics are written in the end. -/
  statsFile : String := "stats.txt"
  /-- Whether the driver's mode is tried first. -/
  native : Bool := false
  /-- Seconds between two reports in the log; zero for none. -/
  reportInterval : Nat := 0
  /-- How many sources such a report lists. -/
  top : Nat := 10
  /-- The port of the HTTP interface, if there is to be one. -/
  apiPort : Option Nat := none
  /-- The level that the log listens at. -/
  logLevel : Level := .info
  deriving DecidableEq, Repr

namespace Settings

/-- A letter without regard to case. -/
def lowerCase (c : Char) : Char :=
  if 'A' ≤ c && c ≤ 'Z' then Char.ofNat (c.toNat + 32) else c

/-- A level by its number or by its name in letters of any case. -/
def level? (value : String) : Option Level :=
  match CommandLine.word? value with
  | some n => Level.all.find? fun level => level.number == n
  | none =>
    Level.all.find? fun level =>
      level.name.toList.map lowerCase == value.toList.map lowerCase

/-- The options of the daemon. -/
def options : List OptionSpec :=
  [{ name := "config", short := some 'c', check := some CommandLine.checkPath },
    { name := "bpf-object", check := some CommandLine.checkPath },
    { name := "stats-file", check := some CommandLine.checkPath },
    { name := "native" },
    { name := "report-interval", check := some (CommandLine.checkWith CommandLine.word?) },
    { name := "top", check := some (CommandLine.checkWith CommandLine.word?) },
    { name := "api-port", check := some (CommandLine.checkWith CommandLine.port?) },
    { name := "log-level", check := some (CommandLine.checkWith level?) }]

/-- The settings that options give. -/
def ofGiven (given : CommandLine.Given) : Settings :=
  let defaults : Settings := {}
  { config := given.lookup "config"
    object := (given.lookup "bpf-object").getD defaults.object
    statsFile := (given.lookup "stats-file").getD defaults.statsFile
    native := (given.lookup "native").isSome
    reportInterval :=
      ((given.lookup "report-interval").bind CommandLine.word?).getD defaults.reportInterval
    top := ((given.lookup "top").bind CommandLine.word?).getD defaults.top
    apiPort := (given.lookup "api-port").bind CommandLine.port?
    logLevel := ((given.lookup "log-level").bind level?).getD defaults.logLevel }

/-- Reads the arguments of the daemon. -/
def parse (arguments : List String) : Except UsageError Settings :=
  (CommandLine.read options false arguments).map fun parsed => ofGiven parsed.given

/-- What help says about the daemon. -/
def helpLines : List String :=
  ["IPv4 blacklist and per-source rate limiting with XDP", "", "Usage: ipfilterd [OPTIONS]", "",
    "Options:",
    "  -c, --config <CONFIG>                    " ++
      "Config file (default: config.txt next to the executable)",
    "      --bpf-object <BPF_OBJECT>            " ++
      "Compiled eBPF object [default: target/bpfel-unknown-none/release/ipfilter]",
    "      --stats-file <STATS_FILE>            " ++
      "Where to write the statistics table on shutdown [default: stats.txt]",
    "      --native                             " ++
      "Try native XDP mode first (falls back to SKB)",
    "      --report-interval <REPORT_INTERVAL>  " ++
      "Log the top sources every N seconds (0 = disabled) [default: 0]",
    "      --top <TOP>                          " ++
      "Number of sources in periodic reports [default: 10]",
    "      --api-port <API_PORT>                Serve the HTTP API on this port",
    "      --log-level <LOG_LEVEL>              Log level [default: info]",
    "  -h, --help                               Print help"]

end Settings
end SourceFilter
