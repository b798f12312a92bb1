import SourceFilter.Daemon.Run

/-!
# The daemon at the command line

The arguments set the daemon up. It reads its object file and its configuration from the disk, holds
the maps of the filter program itself, and writes its log to standard output. Requests come line by
line on standard input, each a method and a target with a space between them. The end of the input
ends the daemon as a signal does, with the statistics written to their file.
-/

namespace SourceFilter.Main

/-- The error number that a word stands for, which may hold it with the sign turned. -/
def errnoOfWord (code : UInt32) : Errno := ⟨min code.toNat (0 - code).toNat⟩

/-- The error number of a failed call to the system. -/
def errnoOf : IO.Error → Errno
  | .noFileOrDirectory _ code _ => errnoOfWord code
  | .permissionDenied _ code _ => errnoOfWord code
  | .inappropriateType _ code _ => errnoOfWord code
  | .invalidArgument _ code _ => errnoOfWord code
  | .resourceExhausted _ code _ => errnoOfWord code
  | .otherError code _ => errnoOfWord code
  | _ => .noEntry

/-- Reads the bytes of a file. -/
def readBytes (path : String) : IO (Except Errno ByteArray) := do
  try return .ok (← IO.FS.readBinFile path)
  catch e => return .error (errnoOf e)

/-- Creates a file, or empties it. -/
def createFile (path : String) : IO (Except Errno IO.FS.Handle) := do
  try return .ok (← IO.FS.Handle.mk path .write)
  catch e => return .error (errnoOf e)

/-- Writes a text to a new file. -/
def writeText (path text : String) : IO (Except WriteFault Unit) := do
  match ← createFile path with
  | .error errno => return .error (.notCreated errno)
  | .ok file =>
    try
      file.putStr text
      file.flush
      return .ok ()
    catch e => return .error (.notFilled (errnoOf e))

/-- The time in nanoseconds since some fixed moment. -/
def clock : IO UInt64 := do return UInt64.ofNat (← IO.monoNanosNow)

/-- Writes the events that the log hears. -/
def writeLog (level : Level) (events : List Event) : IO Unit :=
  (events.filter (·.heardAt level)).forM fun event => IO.println event.shown

/-- The text of the content of an answer. -/
def bodyText : HttpBody → String
  | .empty => ""
  | .text content => content
  | .json content => content.render

/-- The request on a line. -/
def requestOf (line : String) : HttpRequest :=
  match Text.splitOnce ' ' (Text.trim line.toList) with
  | none => ⟨"GET", String.ofList (Text.trim line.toList)⟩
  | some (method, target) => ⟨String.ofList method, String.ofList target⟩

/-- Answers the requests on standard input until it ends. -/
partial def serve (d : Daemon) : IO Daemon := do
  let line ← (← IO.getStdin).getLine
  if line.isEmpty then return d
  let (response, d, events) :=
    d.answer (← clock) (← readBytes d.configPath) (requestOf line)
  writeLog d.settings.logLevel events
  IO.println (Text.decimal response.status)
  IO.println (bodyText response.body)
  serve d

/-- Writes a failure to standard error, if there is one; the exit code. -/
def finish : Option Failure → IO UInt32
  | none => return 0
  | some failure => do
    failure.report.forM IO.eprintln
    return 1

/-- Runs the daemon with its settings. -/
def run (settings : Settings) : IO UInt32 := do
  let executable ← IO.appPath
  let path := settings.configPath ((executable.parent.map toString).getD "")
  let startup := Daemon.start { maps := [] } settings path
    (.ofBytes (← readBytes settings.object)) (← readBytes path) (.ok ()) (← clock)
  writeLog settings.logLevel startup.events
  match startup.outcome with
  | .error failure => finish (some failure)
  | .ok d =>
    let d ← serve d
    let outcome := d.service.statistics
    let written ←
      match outcome with
      | .error _ => pure (.ok ())
      | .ok report => writeText settings.statsFile report.table
    let (failure, events) := d.finish .terminate outcome written
    writeLog settings.logLevel events
    finish failure

end SourceFilter.Main

/-- Sets the daemon up by its arguments and runs it. -/
def main (arguments : List String) : IO UInt32 :=
  match SourceFilter.Settings.parse arguments with
  | .ok settings => SourceFilter.Main.run settings
  | .error .help => do
    SourceFilter.Settings.helpLines.forM IO.println
    return UInt32.ofNat SourceFilter.UsageError.help.exitCode
  | .error fault => do
    IO.eprintln ("error: " ++ fault.message)
    return UInt32.ofNat fault.exitCode
