import SourceFilter.Text.Terminal

/-!
# Log events

The program reports what it does as events with a level. A subscriber that listens at a level
hears that level and all more severe ones.
-/

namespace SourceFilter

/-- How severe an event is. -/
inductive Level where
  | error
  | warn
  | info
  | debug
  | trace
  deriving DecidableEq, Repr

namespace Level

/-- The number of a level: the more severe, the lower. -/
def number : Level → Nat
  | .error => 1
  | .warn => 2
  | .info => 3
  | .debug => 4
  | .trace => 5

/-- All levels, the most severe first. -/
def all : List Level := [.error, .warn, .info, .debug, .trace]

/-- The name of a level in a log line. -/
def name : Level → String
  | .error => "ERROR"
  | .warn => "WARN"
  | .info => "INFO"
  | .debug => "DEBUG"
  | .trace => "TRACE"

end Level

/-- One thing that happened. -/
structure Event where
  /-- How severe it is. -/
  level : Level
  /-- What happened. -/
  message : String
  deriving DecidableEq, Repr

namespace Event

/-- An event worth a line in every normal log. -/
def info (message : String) : Event := ⟨.info, message⟩

/-- An event that somebody should look at. -/
def warn (message : String) : Event := ⟨.warn, message⟩

/-- A failure. -/
def error (message : String) : Event := ⟨.error, message⟩

/-- An event of interest to developers. -/
def debug (message : String) : Event := ⟨.debug, message⟩

/-- The log line: level and message. -/
def line (e : Event) : String := e.level.name ++ " " ++ e.message

/-- The log line as the daemon writes it: nothing in the message steers a terminal. -/
def shown (e : Event) : String :=
  e.level.name ++ " " ++ String.ofList (Text.shown e.message.toList)

/-- Whether a subscriber at the given level hears the event. -/
def heardAt (level : Level) (e : Event) : Bool := e.level.number ≤ level.number

end Event
end SourceFilter
