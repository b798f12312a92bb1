import SourceFilter.CommandLine
import SourceFilter.Errno
import SourceFilter.Failure

/-!
# The build tool

The build tool has three commands: it builds the filter program, builds the program and the
daemon, or builds both for release and runs the daemon. It works by calling other commands one
after the other, and stops at the first that fails.
-/

namespace SourceFilter.BuildTool

/-- How a command ended. -/
inductive Exit where
  /-- It returned a code. -/
  | code (n : Nat)
  /-- A signal ended it. -/
  | killed
  deriving DecidableEq, Repr

namespace Exit

/-- Whether the command did what it should. -/
def succeeded (e : Exit) : Bool := e == .code 0

/-- How the command ended, in words. -/
def text : Exit → String
  | .code n => "exit status: " ++ Text.decimal n
  | .killed => "signal: 9 (SIGKILL)"

end Exit

/-- The commands around the tool, and what the tool did so far. -/
structure Shell where
  /-- How the next runs of each command end; after that they succeed. -/
  exits : List (String × List Exit) := []
  /-- The commands that do not exist. -/
  missing : List String := []
  /-- The commands that were run, with their arguments. -/
  commands : List (List String) := []
  /-- The lines that were printed. -/
  printed : List String := []

/-- Work that may fail. -/
abbrev Work := ExceptT Failure (StateM Shell)

/-- How the next run of a command ends. -/
def Shell.nextExit (s : Shell) (command : String) : Exit :=
  ((s.exits.lookup command).bind List.head?).getD (.code 0)

/-- The shell after a run of a command. -/
def Shell.afterRun (s : Shell) (command : String) (arguments : List String) : Shell :=
  { s with
    exits := s.exits.map fun (name, exits) =>
      (name, if name = command then exits.drop 1 else exits)
    commands := s.commands ++ [command :: arguments] }

/-- Prints a line. -/
def say (line : String) : Work Unit := modify fun s => { s with printed := s.printed ++ [line] }

/-- Runs a command and tells how it ended. -/
def run (command : String) (arguments : List String) (failure : String) : Work Exit := do
  let s ← get
  if s.missing.contains command then throw ⟨failure, [Errno.noEntry.message]⟩
  set (s.afterRun command arguments)
  return s.nextExit command

/-- Does some work; a failure becomes the cause of a larger one. -/
def within (context : String) (work : Work Unit) : Work Unit :=
  tryCatch work fun failure => throw (failure.within context)

/-- Runs the compiler driver, which has to succeed. -/
def compile (arguments : List String) : Work Unit := do
  let exit ← run "cargo" arguments "Failed to run cargo"
  if !exit.succeeded then
    throw ⟨"cargo " ++ " ".intercalate arguments ++ " exited with " ++ exit.text, []⟩

/-- The target that the filter program is compiled for. -/
def programTarget : String := "bpfel-unknown-none"

/-- The name of a build profile. -/
def profile (release : Bool) : String := if release then "release" else "debug"

/-- Where the filter program is built. -/
def programPath (release : Bool) : String :=
  "target/" ++ programTarget ++ "/" ++ profile release ++ "/ipfilter"

/-- The argument that asks for the release profile. -/
def releaseArgument (release : Bool) : List String := if release then ["--release"] else []

/-- Builds the filter program. -/
def buildProgram (release : Bool) : Work Unit := do
  say ("Building XDP program (" ++ profile release ++ ")...")
  within "XDP program build failed" <| compile <|
    ["+nightly", "build", "--manifest-path", "ipfilter-ebpf/Cargo.toml", "--target",
      programTarget, "-Z", "build-std=core", "--target-dir", "target"] ++ releaseArgument release
  say ("Built " ++ programPath release)

/-- Builds the daemon. -/
def buildDaemon (release : Bool) : Work Unit := do
  say ("Building ipfilterd (" ++ profile release ++ ")...")
  within "Userspace build failed" <| compile <|
    ["build", "-p", "ipfilter-control"] ++ releaseArgument release

/-- Runs the daemon with a configuration file and more arguments. -/
def runDaemon (config : String) (extra : List String) : Work Unit := do
  say ("Running ipfilterd with " ++ config ++ "...")
  let exit ← run "sudo"
    (["./target/release/ipfilterd", "--config", config, "--bpf-object", programPath true] ++ extra)
    "Failed to run ipfilterd"
  if !exit.succeeded then throw ⟨"ipfilterd exited with " ++ exit.text, []⟩

/-- What the tool is asked to do. -/
inductive Command where
  /-- Build the filter program. -/
  | program (release : Bool)
  /-- Build the filter program and the daemon. -/
  | everything (release : Bool)
  /-- Build for release and run the daemon. -/
  | run (config : String) (extra : List String)
  deriving DecidableEq, Repr

/-- Does what the tool is asked to do. -/
def perform : Command → Work Unit
  | .program release => buildProgram release
  | .everything release => do
    buildProgram release
    buildDaemon release
  | .run config extra => do
    buildProgram true
    buildDaemon true
    runDaemon config extra

/-- The commands by name. -/
inductive CommandName where
  | program
  | everything
  | run
  deriving DecidableEq, Repr

namespace CommandName

/-- The command with that name. -/
def ofText? : String → Option CommandName
  | "build-ebpf" => some .program
  | "build" => some .everything
  | "run" => some .run
  | _ => none

/-- The options of a command. -/
def options : CommandName → List OptionSpec
  | .program | .everything => [{ name := "release" }]
  | .run => [{ name := "config", short := some 'c', check := some CommandLine.checkPath }]

/-- The command that the options give. -/
def command (name : CommandName) (parsed : CommandLine.Parsed) : Command :=
  let release := (parsed.given.lookup "release").isSome
  match name with
  | .program => .program release
  | .everything => .everything release
  | .run => .run ((parsed.given.lookup "config").getD "config.txt") parsed.rest

/-- What help says about a command. -/
def help : CommandName → List String
  | .program =>
    ["Build the XDP program", "", "Usage: xtask build-ebpf [OPTIONS]", "", "Options:",
      "      --release  Build in release mode", "  -h, --help     Print help"]
  | .everything =>
    ["Build the XDP program and the daemon", "", "Usage: xtask build [OPTIONS]", "", "Options:",
      "      --release  Build in release mode", "  -h, --help     Print help"]
  | .run =>
    ["Build in release mode and run the daemon under sudo", "",
      "Usage: xtask run [OPTIONS] [-- <EXTRA>...]", "", "Arguments:",
      "  [EXTRA]...  Extra arguments for ipfilterd", "", "Options:",
      "  -c, --config <CONFIG>  Config file passed through to ipfilterd [default: config.txt]",
      "  -h, --help             Print help"]

end CommandName

/-- What help says about the tool. -/
def helpLines : List String :=
  ["Usage: xtask <COMMAND>", "", "Commands:", "  build-ebpf  Build the XDP program",
    "  build       Build the XDP program and the daemon",
    "  run         Build in release mode and run the daemon under sudo",
    "  help        Print this message or the help of the given subcommand(s)", "", "Options:",
    "  -h, --help  Print help"]

/-- What help says about help. -/
def helpHelpLines : List String :=
  ["Print this message or the help of the given subcommand(s)", "",
    "Usage: xtask help [COMMAND]...", "", "Arguments:",
    "  [COMMAND]...  Print help for the subcommand(s)"]

/-- What the arguments ask for. -/
inductive Request where
  /-- A command. -/
  | perform (command : Command)
  /-- Help, in these lines. -/
  | help (lines : List String)
  deriving DecidableEq, Repr

/-- Reads the arguments of the tool. -/
def parse : List String → Except UsageError Request
  | [] => .error .missingValue
  | ["help"] => .ok (.help helpLines)
  | ["help", name] =>
    match CommandName.ofText? name with
    | some name => .ok (.help name.help)
    | none => if name = "help" then .ok (.help helpHelpLines) else .error .unknownArgument
  | first :: arguments =>
    if first = "--help" || first = "-h" then .ok (.help helpLines)
    else
      match CommandName.ofText? first with
      | none => .error .unknownArgument
      | some name =>
        match CommandLine.read name.options (name == .run) arguments with
        | .ok parsed => .ok (.perform (name.command parsed))
        | .error .help => .ok (.help name.help)
        | .error e => .error e

/-- What a run of the tool leaves behind. -/
structure Result where
  /-- The exit code. -/
  exitCode : Nat
  /-- The lines that were printed. -/
  printed : List String
  /-- The lines that report a failure. -/
  errorLines : List String
  /-- The commands that were run, with their arguments. -/
  commands : List (List String)
  deriving DecidableEq, Repr

/-- Does what the arguments ask for. -/
def Request.run (shell : Shell) : Request → Result
  | .help lines => ⟨0, lines, [], []⟩
  | .perform command =>
    match (BuildTool.perform command).run.run shell with
    | (.ok _, s) => ⟨0, s.printed, [], s.commands⟩
    | (.error failure, s) => ⟨1, s.printed, failure.report, s.commands⟩

end SourceFilter.BuildTool
