import SourceFilter.Daemon.Service

/-!
# The HTTP interface

Four resources can be read: an index, the statistics, the sources with the most dropped packets,
and the generation. Posting to a fifth one makes the daemon reload its configuration. Only that
changes anything. Requests for `OPTIONS` are answered for every path, so that pages of any origin
may use the interface.
-/

namespace SourceFilter

/-- What a client asks for. -/
structure HttpRequest where
  /-- The method. -/
  method : String
  /-- The resource: a path, possibly with a query. -/
  target : String

/-- The content of an answer. -/
inductive HttpBody where
  /-- Nothing. -/
  | empty
  /-- Plain text. -/
  | text (content : String)
  /-- A JSON document. -/
  | json (content : Json)

/-- An answer. -/
structure HttpResponse where
  /-- The status code. -/
  status : Nat
  /-- What kind of content a full answer has. -/
  contentType : Option String
  /-- The content. -/
  body : HttpBody

namespace HttpBody

/-- The type of a content. -/
def contentType : HttpBody → Option String
  | .empty => none
  | .text _ => some "text/plain; charset=utf-8"
  | .json _ => some "application/json"

end HttpBody

namespace HttpResponse

/-- An answer with a content. -/
def of (status : Nat) (body : HttpBody) : HttpResponse := ⟨status, body.contentType, body⟩

/-- The same answer without its content. -/
def withoutBody (r : HttpResponse) : HttpResponse := { r with body := .empty }

end HttpResponse

namespace Http

/-- The resources. -/
inductive Route where
  | index
  | statistics
  | top
  | generation
  | reload
  deriving DecidableEq, Repr

/-- The resource at a path. -/
def Route.ofPath? (path : String) : Option Route :=
  match path with
  | "/" => some .index
  | "/stats" => some .statistics
  | "/stats/top" => some .top
  | "/generation" => some .generation
  | "/reload" => some .reload
  | _ => none

/-- Whether a character may stand in a scheme. -/
def isSchemeChar (c : Char) : Bool :=
  c.isAlphanum || c == '+' || c == '-' || c == '.' || c == '~'

/-- A target without scheme and host. -/
def withoutHost (target : List Char) : List Char :=
  match target.dropWhile isSchemeChar with
  | ':' :: '/' :: '/' :: rest =>
    match rest.dropWhile fun c => c != '/' && c != '?' && c != '#' with
    | '/' :: path => '/' :: path
    | tail => '/' :: tail
  | _ => target

/-- The path and the query of a target. -/
def splitTarget (target : String) : List Char × List Char :=
  let whole := (withoutHost target.toList).takeWhile (· != '#')
  match Text.splitOnce '?' whole with
  | none => (whole, [])
  | some (path, query) => (path, query)

/-- The value of a hexadecimal digit. -/
def hexValue? (c : Char) : Option Nat :=
  if c.isDigit then some (c.toNat - 48)
  else if 'a' ≤ c && c ≤ 'f' then some (c.toNat - 87)
  else if 'A' ≤ c && c ≤ 'F' then some (c.toNat - 55)
  else none

/-- A part of a query as it was meant: a plus sign is a space, and a percent sign with two digits
is the character with that number. -/
def decode : List Char → List Char
  | [] => []
  | '+' :: rest => ' ' :: decode rest
  | '%' :: a :: b :: rest =>
    match hexValue? a, hexValue? b with
    | some high, some low => Char.ofNat (high * 16 + low) :: decode rest
    | _, _ => '%' :: decode (a :: b :: rest)
  | c :: rest => c :: decode rest

/-- The fields of a query, each with its value. -/
def fields (query : List Char) : List (List Char × List Char) :=
  ((Text.split '&' query).filter fun field => !field.isEmpty).map fun field =>
    match Text.splitOnce '=' field with
    | none => (decode field, [])
    | some (name, value) => (decode name, decode value)

/-- Why a limit cannot be read. Digits are taken from the left, so a number that is too large is
noticed before a character behind it that is no digit. -/
def limitFault (value : List Char) : String :=
  let unsigned := if value.head? = some '+' then value.drop 1 else value
  let leading := unsigned.takeWhile Char.isDigit
  if value.isEmpty then "cannot parse integer from empty string"
  else if UInt64.size ≤ Text.digitsValue leading then "number too large to fit in target type"
  else "invalid digit found in string"

/-- The limit that the fields of a query set: at most one, and a number of 64 bits. -/
def limit? (fields : List (List Char × List Char)) : Except String (Option Nat) :=
  match fields.filter fun field => field.1 = "limit".toList with
  | [] => .ok none
  | (_, value) :: others =>
    match (Text.lax? value).filter (· < UInt64.size) with
    | none => .error (limitFault value)
    | some n => if others.isEmpty then .ok (some n) else .error "duplicate field `limit`"

/-- How many sources are listed when the query does not say. -/
def defaultTop : Nat := 10

/-- The lines of the index. -/
def indexLines : List String :=
  ["ipfilter", "", "Endpoints:",
    "  GET  /stats              - Global totals and per-source counters",
    "  GET  /stats/top?limit=N  - Top N sources by dropped packets",
    "  GET  /generation         - Current generation marker and interface",
    "  POST /reload             - Reconcile against the config file now"]

/-- What the index says. -/
def indexText : String := String.join (indexLines.map (· ++ "\n"))

/-- An answer, the service after it, and what was logged. -/
structure Exchange (σ : Type) where
  /-- The answer. -/
  response : HttpResponse
  /-- The service afterwards. -/
  service : Service σ
  /-- What was logged. -/
  events : List Event

variable {σ : Type}

/-- An answer that leaves everything as it is. -/
def unchanged (s : Service σ) (response : HttpResponse) : Exchange σ := ⟨response, s, []⟩

/-- An answer from the statistics. -/
def withStatistics [Counter σ] (s : Service σ) (encode : Statistics → Json) : Exchange σ :=
  match s.statistics with
  | .ok report => unchanged s (.of 200 (.json (encode report)))
  | .error failure =>
    ⟨.of 500 .empty, s, [.error ("Failed to read statistics: " ++ failure.inline)]⟩

/-- The answer to a request to read a resource. -/
def read [Counter σ] (s : Service σ) (query : List Char) : Route → Exchange σ
  | .index => unchanged s (.of 200 (.text indexText))
  | .statistics => withStatistics s Statistics.toJson
  | .top =>
    match limit? (fields query) with
    | .error fault =>
      unchanged s (.of 400 (.text ("Failed to deserialize query string: " ++ fault)))
    | .ok limit =>
      withStatistics s fun report =>
        Json.ofList SourceTally.toJson (report.top (limit.getD defaultTop))
  | .generation =>
    unchanged s (.of 200 (.json (.object
      [("generation", .number s.book.generation.toNat),
        ("interface", Json.ofOption .string s.book.interface)])))
  | .reload => unchanged s (.of 405 .empty)

/-- The answer to a request to reload. -/
def reload [Store σ] (s : Service σ) (clock : UInt64) (path : String)
    (content : Except Errno ByteArray) : Exchange σ :=
  let result := s.reload clock path content
  let response : HttpResponse :=
    match result.outcome with
    | .ok report => .of 200 (.json report.toJson)
    | .error failure => .of 422 (.text failure.inline)
  ⟨response, result.service, result.events⟩

/-- Answers a request. The content of the configuration file is what a reload would read. -/
def respond [Counter σ] [Store σ] (s : Service σ) (clock : UInt64) (path : String)
    (content : Except Errno ByteArray) (request : HttpRequest) : Exchange σ :=
  let (resource, query) := splitTarget request.target
  if request.method = "OPTIONS" then unchanged s (.of 200 .empty)
  else
    match Route.ofPath? (String.ofList resource) with
    | none => unchanged s (.of 404 .empty)
    | some .reload =>
      if request.method = "POST" then reload s clock path content
      else unchanged s (.of 405 .empty)
    | some route =>
      if request.method = "GET" then read s query route
      else if request.method = "HEAD" then
        let exchange := read s query route
        { exchange with response := exchange.response.withoutBody }
      else unchanged s (.of 405 .empty)

end Http
end SourceFilter
