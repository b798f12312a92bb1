import SourceFilter.Errno
import SourceFilter.Failure
import SourceFilter.Reconcile.Pass

/-!
# The running service

The service keeps a store in line with a configuration file. A reload reads the whole file and then
makes a pass with what it read. A file that cannot be read, is not UTF-8, or is turned down changes
nothing, so the last good configuration stays in force.
-/

namespace SourceFilter

/-- A store and what is known to be live in it. -/
structure Service (σ : Type) where
  /-- What is known to be live. -/
  book : Book := {}
  /-- The store. -/
  store : σ

/-- The words for a file that is not UTF-8. -/
def notText : String := "stream did not contain valid UTF-8"

/-- The text of a configuration file, from what reading its bytes gave. -/
def configText (path : String) (content : Except Errno ByteArray) : Except Failure String :=
  match content with
  | .error errno => .error ⟨"Failed to read " ++ path, [errno.message]⟩
  | .ok bytes =>
    match String.fromUTF8? bytes with
    | none => .error ⟨"Failed to read " ++ path, [notText]⟩
    | some raw => .ok raw

/-- What a reload did. -/
structure Reload (σ : Type) where
  /-- The report of the pass, or why nothing changed. -/
  outcome : Except Failure Report
  /-- The service afterwards. -/
  service : Service σ
  /-- What was logged. -/
  events : List Event

namespace Service

variable {σ : Type}

/-- Makes a pass with a configuration text. -/
def apply [Store σ] (s : Service σ) (clock : UInt64) (raw : String) : Reload σ :=
  let p := reconcileText clock raw s.book s.store
  { outcome := p.result.mapError fun e => ⟨e.message, []⟩
    service := ⟨p.book, p.store⟩
    events := reconcileEvents raw p }

/-- Makes a pass with what reading the configuration file gave. -/
def reload [Store σ] (s : Service σ) (clock : UInt64) (path : String)
    (content : Except Errno ByteArray) : Reload σ :=
  match configText path content with
  | .error failure => ⟨.error failure, s, []⟩
  | .ok raw => s.apply clock raw

/-- The statistics of the store. -/
def statistics [Counter σ] (s : Service σ) : Except Failure Statistics :=
  (Statistics.collect s.store).mapError fun e => ⟨e.message, []⟩

end Service

/-- What is logged about the sources with the most dropped packets. -/
def Statistics.topEvents (report : Statistics) (n : Nat) : List Event :=
  .info report.totalsLine :: (report.top n).map fun s => .info (Statistics.logLine s)

end SourceFilter
