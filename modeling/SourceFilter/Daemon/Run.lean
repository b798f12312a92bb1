import SourceFilter.Daemon.Http
import SourceFilter.Daemon.Settings
import SourceFilter.Daemon.Watch
import SourceFilter.FileTree
import SourceFilter.Kernel.Program

/-!
# Runs of the daemon

The daemon loads the filter program, clears its counters, makes a first pass with the
configuration file, attaches the program to the interface that the file names, and watches the
file. From then on it reconciles whenever the file may have changed and answers requests, until a
signal ends it; then it writes the statistics and lets the program go. A failure at any point ends
the daemon with a report.
-/

namespace SourceFilter

/-- A daemon that is running. -/
structure Daemon where
  /-- How it was set up. -/
  settings : Settings
  /-- The path of its configuration file. -/
  configPath : String
  /-- The attached program. -/
  filter : Filter
  /-- What is known to be live in the kernel. -/
  book : Book

/-- What came of starting a daemon. -/
structure Startup where
  /-- The kernel as the start left it, if the object file could be loaded. -/
  kernel : Option Kernel
  /-- The running daemon, or the first failure. -/
  outcome : Except Failure Daemon
  /-- What was logged. -/
  events : List Event

/-- The signals that end the daemon. -/
inductive Signal where
  | terminate
  | interrupt
  deriving DecidableEq, Repr

/-- The name of a signal. -/
def Signal.name : Signal → String
  | .terminate => "SIGTERM"
  | .interrupt => "SIGINT"

/-- Why the statistics could not be written. -/
inductive WriteFault where
  /-- The file could not be created. -/
  | notCreated (errno : Errno)
  /-- The file was created, but did not take the text. -/
  | notFilled (errno : Errno)

/-- The fault as a failure to write the file at a path. -/
def WriteFault.failure (path : String) : WriteFault → Failure
  | .notCreated errno => ⟨"Failed to create " ++ path, [errno.message]⟩
  | .notFilled errno => ⟨errno.message, []⟩

namespace Settings

/-- The path of the configuration file, by default a file in the folder of the executable. -/
def configPath (s : Settings) (executableFolder : String) : String :=
  s.config.getD (executableFolder ++ "/config.txt")

/-- The mode in which the program is attached first. -/
def attachMode (s : Settings) : AttachMode := if s.native then .nativeMode else .unspecified

end Settings

namespace Daemon

/-- Starts a daemon on a kernel, with what is found at the paths of the object file and of the
configuration file, and with what comes of watching the latter. -/
def start (kernel : Kernel) (settings : Settings) (configPath : String) (object : ObjectFile)
    (content : Except Errno ByteArray) (watching : Except Failure Unit) (clock : UInt64) :
    Startup :=
  let hello : Event := .info ("Starting ipfilter (config: " ++ configPath ++ ")")
  let loading := kernel.loadObject settings.object object
  let loadEvents := hello :: loading.events
  match loading.outcome with
  | .error failure => ⟨loading.kernel, .error failure, loadEvents⟩
  | .ok filter =>
    match filter.kernel.resetTotals with
    | (.error failure, kernel) => ⟨some kernel, .error failure, loadEvents⟩
    | (.ok _, kernel) =>
      match configText configPath content with
      | .error failure => ⟨some kernel, .error failure, loadEvents⟩
      | .ok raw =>
        let first := Service.apply { store := kernel } clock raw
        let kernel := first.service.store
        let passEvents := loadEvents ++ first.events
        match first.outcome with
        | .error failure =>
          ⟨some kernel, .error (failure.within "Initial configuration rejected"), passEvents⟩
        | .ok report =>
          let attachment :=
            { filter with kernel := kernel }.attach report.interface settings.attachMode
          match attachment, watching with
          | (.error failure, filter, events), _ =>
            ⟨some filter.kernel, .error failure, passEvents ++ events⟩
          | (.ok _, filter, events), .error failure =>
            ⟨some filter.kernel, .error failure, passEvents ++ events ++ filter.releaseEvents⟩
          | (.ok _, filter, events), .ok _ =>
            ⟨some filter.kernel, .ok ⟨settings, configPath, filter, first.service.book⟩,
              passEvents ++ events ++ [.info ("Watching config file " ++ configPath)]⟩

/-- The service that the daemon gives. -/
def service (d : Daemon) : Service Kernel := ⟨d.book, d.filter.kernel⟩

/-- The daemon with its service replaced. -/
def withService (d : Daemon) (s : Service Kernel) : Daemon :=
  { d with book := s.book, filter := { d.filter with kernel := s.store } }

/-- What is logged when the HTTP interface is started. -/
def apiEvents (d : Daemon) (portTaken : Bool) : List Event :=
  match d.settings.apiPort with
  | none => []
  | some port =>
    .info ("API listening on http://0.0.0.0:" ++ Text.decimal port) ::
      if portTaken then [.error ("API server failed: " ++ Errno.addressInUse.message)] else []

/-- Reconciles after the configuration file may have changed. -/
def reconcileChange (d : Daemon) (clock : UInt64) (content : Except Errno ByteArray) :
    Daemon × List Event :=
  let result := d.service.reload clock d.configPath content
  let complaint : List Event :=
    match result.outcome with
    | .ok _ => []
    | .error failure =>
      [.error ("Reconciliation failed, keeping previous state: " ++ failure.inline)]
  (d.withService result.service,
    .info "Config file changed, reconciling" :: result.events ++ complaint)

/-- The name of the configuration file in its folder. -/
def configName (d : Daemon) : List Char := (Path.name? d.configPath.toList).getD []

/-- What the daemon does about a report on its folder. -/
def notice (d : Daemon) (clock : UInt64) (content : Except Errno ByteArray)
    (paths : List (List Char)) (event : FileEvent) : Daemon × List Event :=
  if event.concerns d.configName paths then
    let (d, events) := d.reconcileChange clock content
    (d, .debug ("Config event: " ++ event.text) :: events)
  else (d, [])

/-- Answers a request. -/
def answer (d : Daemon) (clock : UInt64) (content : Except Errno ByteArray)
    (request : HttpRequest) : HttpResponse × Daemon × List Event :=
  let exchange := Http.respond d.service clock d.configPath content request
  (exchange.response, d.withService exchange.service, exchange.events)

/-- Ends the daemon, with the statistics it read and whether they could be written: the failure that
ended it otherwise, and what was logged. -/
def finish (d : Daemon) (signal : Signal) (outcome : Except Failure Statistics)
    (written : Except WriteFault Unit) : Option Failure × List Event :=
  let received : Event := .info ("Received " ++ signal.name ++ ", shutting down")
  let path := d.settings.statsFile
  match outcome, written with
  | .error failure, _ => (some failure, received :: d.filter.releaseEvents)
  | .ok _, .error fault => (some (fault.failure path), received :: d.filter.releaseEvents)
  | .ok report, .ok _ =>
    (none, [received, .info report.totalsLine, .info ("Statistics written to " ++ path)] ++
      d.filter.releaseEvents)

end Daemon

/-- A device, which is written like a file but keeps nothing. -/
inductive Device where
  /-- It takes everything. -/
  | null
  /-- It has no room. -/
  | full
  /-- The standard output of the daemon, where its log goes as well. -/
  | output
  /-- The standard error of the daemon. -/
  | errors
  deriving DecidableEq, Repr

/-- What a file holds. -/
inductive FileContent where
  /-- Bytes. -/
  | bytes (content : ByteArray)
  /-- An object file. -/
  | program (image : ProgramImage)
  /-- Nothing, since it is a device. -/
  | device (device : Device)

/-- The machine that the daemon runs on. -/
structure Host where
  /-- Its files. -/
  files : FileTree FileContent
  /-- The working folder of the daemon. -/
  working : Place
  /-- The path of the folder that the executable is in. -/
  executableFolder : String
  /-- The kernel, before the daemon loads anything. -/
  kernel : Kernel
  /-- Whether somebody else listens on the port of the HTTP interface. -/
  portTaken : Bool := false
  /-- Whether clients can connect to the machine at all. -/
  connects : Bool := true
  /-- What was written to the standard error of the daemon as to a file. -/
  errorText : String := ""

namespace Host

/-- The object file at a path. -/
def object (h : Host) (path : String) : ObjectFile :=
  match h.files.read h.working path with
  | .error errno => .unreadable errno
  | .ok (.bytes content) => .ofBytes (.ok content)
  | .ok (.device _) => .malformed
  | .ok (.program image) => .image image.image

/-- The bytes of the file at a path. An object file is no text. -/
def content (h : Host) (path : String) : Except Errno ByteArray :=
  (h.files.read h.working path).map fun
    | .bytes content => content
    | .program _ => ⟨#[0xFF]⟩
    | .device _ => .empty

/-- The full path of the folder of what a path leads to. -/
def fullFolder (h : Host) (path : String) : List Char :=
  match Path.watched path.toList with
  | '/' :: folder => '/' :: folder
  | folder => ("/" ++ "/".intercalate h.working ++ "/").toList ++ folder

/-- Watches the folder of what a path leads to, by its full path. -/
def watch (h : Host) (path : String) : Except Failure Unit :=
  let folder := h.fullFolder path
  if FileTree.pathLimit < (String.ofList folder).utf8ByteSize then
    .error (Path.watchFailure path.toList folder .nameTooLong)
  else .ok ()

/-- Writes a text to the file at a path. -/
def save (h : Host) (path text : String) : Except WriteFault Host :=
  match h.files.target h.working path with
  | .error errno => .error (.notCreated errno)
  | .ok place =>
    match h.files.content? place with
    | some (.device .null) | some (.device .output) => .ok h
    | some (.device .full) => .error (.notFilled .noSpace)
    | some (.device .errors) => .ok { h with errorText := h.errorText ++ text }
    | _ => .ok { h with files := h.files.put place (.bytes text.toUTF8) }

end Host

/-- What happens while the daemon runs. -/
inductive Happening where
  /-- A file gets new content in one step, which the system reports as the given event. -/
  | replaced (place : Place) (content : ByteArray) (event : FileEvent)
  /-- A file is removed. -/
  | removed (place : Place)
  /-- A client asks for something. -/
  | requested (request : HttpRequest)

/-- A daemon on its host, with what it said so far. -/
structure Running where
  /-- The daemon. -/
  daemon : Daemon
  /-- The machine. -/
  host : Host
  /-- What was logged. -/
  events : List Event
  /-- The answers to requests, where there was one. -/
  responses : List (Option HttpResponse) := []

namespace Running

/-- Whether requests reach the daemon. -/
def isServing (r : Running) : Bool :=
  r.daemon.settings.apiPort.isSome && !r.host.portTaken && r.host.connects

/-- Whether the daemon watches the folder of a place. -/
def watches (r : Running) (place : Place) : Bool :=
  let folder := String.ofList (Path.watched r.daemon.configPath.toList)
  (r.host.files.follow r.host.working folder).toOption == some place.dropLast

/-- Reports a change at a place to the daemon, if it watches there. -/
def report (r : Running) (clock : UInt64) (place : Place) (event : FileEvent) : Running :=
  if r.watches place then
    let content := r.host.content r.daemon.configPath
    let (daemon, events) :=
      r.daemon.notice clock content [("/" ++ "/".intercalate place).toList] event
    { r with daemon := daemon, events := r.events ++ events }
  else r

/-- Lets something happen. -/
def happen (clock : UInt64) (r : Running) : Happening → Running
  | .replaced place content event =>
    { r with host.files := r.host.files.put place (.bytes content) }.report clock place event
  | .removed place =>
    { r with host.files := r.host.files.remove place }.report clock place (.removed .file)
  | .requested request =>
    if r.isServing then
      let (response, daemon, events) :=
        r.daemon.answer clock (r.host.content r.daemon.configPath) request
      { r with
        daemon := daemon
        events := r.events ++ events
        responses := r.responses ++ [some response] }
    else { r with responses := r.responses ++ [none] }

/-- Ends the daemon: the failure that ended it otherwise, and its host with all that was logged. -/
def finish (r : Running) (signal : Signal) : Option Failure × Running :=
  let outcome := r.daemon.service.statistics
  let saved : Except WriteFault Host :=
    match outcome with
    | .error _ => .ok r.host
    | .ok report => r.host.save r.daemon.settings.statsFile report.table
  let (failure, events) := r.daemon.finish signal outcome (saved.map fun _ => ())
  (failure, { r with host := saved.toOption.getD r.host, events := r.events ++ events })

end Running

/-- A run of the daemon from its start to its end. -/
structure Run where
  /-- The failure that ended it, if one did. -/
  failure : Option Failure
  /-- What the log heard. -/
  events : List Event
  /-- The kernel in the end, if the object file could be loaded. -/
  kernel : Option Kernel
  /-- The machine in the end. -/
  host : Host
  /-- The answers to requests, where there was one; nothing at all if the daemon did not start. -/
  responses : Option (List (Option HttpResponse))

namespace Run

/-- The lines of the log, as they are shown. -/
def logLines (r : Run) : List String := r.events.map Event.shown

/-- The exit code. -/
def exitCode (r : Run) : Nat := if r.failure.isSome then 1 else 0

/-- The lines on standard error: what was written there as to a file, and the report of the
failure. -/
def errorLines (r : Run) : List String :=
  (Text.lines r.host.errorText.toList).map String.ofList ++
    match r.failure with
    | none => []
    | some failure => failure.report

end Run

/-- Runs the daemon with the given settings until a signal comes. -/
def Host.run (h : Host) (settings : Settings) (clock : UInt64) (happenings : List Happening)
    (signal : Signal) : Run :=
  let configPath := settings.configPath h.executableFolder
  let startup := Daemon.start h.kernel settings configPath (h.object settings.object)
    (h.content configPath) (h.watch configPath) clock
  let heard (events : List Event) : List Event := events.filter (·.heardAt settings.logLevel)
  match startup.outcome with
  | .error failure => ⟨some failure, heard startup.events, startup.kernel, h, none⟩
  | .ok daemon =>
    let running : Running :=
      { daemon := daemon
        host := h
        events := startup.events ++ daemon.apiEvents h.portTaken }
    let (failure, running) := (happenings.foldl (Running.happen clock) running).finish signal
    ⟨failure, heard running.events, some running.daemon.filter.kernel, running.host,
      some running.responses⟩

/-- The exit code for arguments that are no settings. -/
def UsageError.exitCode : UsageError → Nat
  | .help => 0
  | _ => 2

end SourceFilter
