import SourceFilter.Reconcile.Plan

/-!
# Reconciliation passes

A pass brings a store in line with a configuration: it makes the plan's changes one after the
other. A refused change is counted and logged, the book does not learn of it, and so the next pass
plans it again. A configuration that is turned down changes nothing.
-/

namespace SourceFilter

/-- A change that was tried. -/
structure Call where
  /-- The change. -/
  change : Change
  /-- Whether it took effect. -/
  outcome : Except StoreError Unit

namespace Call

/-- Whether the change took effect. -/
def succeeded (call : Call) : Bool := call.outcome.isOk

/-- What is logged about the call. -/
def event (call : Call) : Event :=
  match call.change, call.outcome with
  | .unblock p, .ok _ => .info ("Removed " ++ p.text ++ " from blacklist")
  | .unblock p, .error e =>
    .warn ("Failed to remove " ++ p.text ++ " from blacklist: " ++ e.message)
  | .block p, .ok _ => .info ("Added " ++ p.text ++ " to blacklist")
  | .block p, .error e => .warn ("Failed to add " ++ p.text ++ " to blacklist: " ++ e.message)
  | .unlimit r, .ok _ => .info ("Removed rate limit " ++ r.text)
  | .unlimit r, .error e => .warn ("Failed to remove rate limit " ++ r.text ++ ": " ++ e.message)
  | .limit r, .ok _ => .info ("Added rate limit " ++ r.text)
  | .limit r, .error e => .warn ("Failed to set rate limit " ++ r.text ++ ": " ++ e.message)
  | .revise r, .ok _ => .info ("Updated rate limit " ++ r.text)
  | .revise r, .error e => .warn ("Failed to set rate limit " ++ r.text ++ ": " ++ e.message)
  | .stamp generation, .ok _ => .debug ("Generation is now " ++ Text.decimal generation.toNat)
  | .stamp _, .error e => .warn ("Failed to update generation marker: " ++ e.message)

end Call

/-- How much of a part changed. -/
structure Delta where
  /-- Entries that were added. -/
  added : Nat := 0
  /-- Entries that were removed. -/
  removed : Nat := 0
  /-- Entries whose value changed. -/
  updated : Nat := 0
  /-- Changes that were refused. -/
  failed : Nat := 0
  deriving DecidableEq, Repr

namespace Delta

/-- One call more. -/
def count (delta : Delta) (call : Call) : Delta :=
  if call.succeeded then
    match call.change with
    | .unblock _ | .unlimit _ => { delta with removed := delta.removed + 1 }
    | .block _ | .limit _ => { delta with added := delta.added + 1 }
    | .revise _ => { delta with updated := delta.updated + 1 }
    | .stamp _ => delta
  else { delta with failed := delta.failed + 1 }

/-- The calls about one part, counted. -/
def ofCalls (part : StorePart) (calls : List Call) : Delta :=
  (calls.filter fun call => call.change.part = part).foldl count {}

/-- Whether anything changed. -/
def changed (delta : Delta) : Bool := 0 < delta.added + delta.removed + delta.updated

/-- The numbers as a document. -/
def toJson (delta : Delta) : Json :=
  .object [("added", .number delta.added), ("removed", .number delta.removed),
    ("updated", .number delta.updated), ("failed", .number delta.failed)]

end Delta

/-- What a pass did. -/
structure Report where
  /-- The interface of the configuration. -/
  interface : String
  /-- Whether this pass bound it. -/
  firstBinding : Bool
  /-- What happened to the blacklist, if the configuration has one. -/
  blacklist : Option Delta
  /-- What happened to the rate rules, if the configuration has some. -/
  rateRules : Option Delta
  /-- The entries of the configuration that were skipped. -/
  warnings : List Warning
  /-- The generation number, if it could be set. -/
  generation : Option UInt64
  deriving DecidableEq, Repr

namespace Report

/-- Whether any part changed. -/
def changed (report : Report) : Bool :=
  report.blacklist.any Delta.changed || report.rateRules.any Delta.changed

/-- How many changes were refused, the generation number aside. -/
def failed (report : Report) : Nat :=
  (report.blacklist.map Delta.failed).getD 0 + (report.rateRules.map Delta.failed).getD 0

/-- The report as a document. -/
def toJson (report : Report) : Json :=
  .object [("interface", .string report.interface), ("first_binding", .bool report.firstBinding),
    ("blacklist", Json.ofOption Delta.toJson report.blacklist),
    ("rate_limits", Json.ofOption Delta.toJson report.rateRules),
    ("warnings", Json.ofList Warning.toJson report.warnings),
    ("generation", Json.ofOption (fun n => .number n.toNat) report.generation)]

end Report

/-- A pass and what it leaves behind. -/
structure Pass (σ : Type) where
  /-- The report, or why the configuration was turned down. -/
  result : Except ConfigError Report
  /-- The changes that were tried, in order. -/
  calls : List Call
  /-- What is known to be live afterwards. -/
  book : Book
  /-- The store afterwards. -/
  store : σ

/-- Makes the changes of a plan one after the other. -/
def carryOut {σ : Type} [Store σ] : List Change → Book → σ → List Call × Book × σ
  | [], book, store => ([], book, store)
  | change :: changes, book, store =>
    let (outcome, store) := Store.perform change.mutation store
    let book := if outcome.isOk then book.learn change else book
    let (calls, book, store) := carryOut changes book store
    (⟨change, outcome⟩ :: calls, book, store)

/-- Brings a store in line with a configuration. -/
def reconcile {σ : Type} [Store σ] (clock : UInt64) (config : Config) (book : Book) (store : σ) :
    Pass σ :=
  match book.interfaceFor config with
  | .error e => ⟨.error e, [], book, store⟩
  | .ok (interface, firstBinding) =>
    let generation := nextGeneration clock book.generation
    let (calls, book, store) := carryOut (book.plan clock config) book store
    let stamped := calls.any fun call => call.change.part = .generation && call.succeeded
    let report : Report :=
      { interface := interface
        firstBinding := firstBinding
        blacklist := config.blacklist.map fun _ => Delta.ofCalls .blacklist calls
        rateRules := config.rateRules.map fun _ => Delta.ofCalls .rateRules calls
        warnings := config.warnings
        generation := if stamped then some generation else none }
    ⟨.ok report, calls, { book with interface := some interface }, store⟩

namespace Pass

variable {σ : Type}

/-- The calls that are about the generation number, or not. -/
def callsAbout (p : Pass σ) (generation : Bool) : List Call :=
  p.calls.filter fun call => (call.change.part = .generation) == generation

/-- What is logged about the pass. -/
def events (p : Pass σ) : List Event :=
  match p.result with
  | .error _ => []
  | .ok report =>
    report.warnings.map (fun w => .warn ("Skipping config entry: " ++ w.message)) ++
      (p.callsAbout false).map Call.event ++
      (if report.firstBinding then [.info ("Bound to interface " ++ report.interface)] else []) ++
      (p.callsAbout true).map Call.event ++
      [.info ("Reconciled: " ++ Text.decimal p.book.blacklist.size ++ " blacklist entries, " ++
        Text.decimal p.book.rateRules.size ++ " rate limits (" ++
        Text.decimal report.warnings.length ++ " warnings, " ++ Text.decimal report.failed ++
        " failed)")]

end Pass

/-- Reads a configuration text and brings a store in line with it. -/
def reconcileText {σ : Type} [Store σ] (clock : UInt64) (raw : String) (book : Book)
    (store : σ) : Pass σ :=
  reconcile clock (Config.parse raw) book store

/-- What is logged while a text is read and reconciled. -/
def reconcileEvents {σ : Type} (raw : String) (p : Pass σ) : List Event :=
  Config.parseEvents raw ++ p.events

end SourceFilter
