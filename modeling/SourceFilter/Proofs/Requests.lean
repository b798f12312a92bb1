import SourceFilter.Daemon.Http
import SourceFilter.Proofs.Text

/-!
# Requests and what they change

The method and the path of a request tell what it is about. A request that posts to the path for
reloads makes the service reload; all others are answered from the service and leave it as it is.
The sources with the most dropped packets are the first ones of the statistics, as many as the
query of the request says.
-/

namespace SourceFilter

/-- The answer to a request to reload: the report of the pass, or why nothing changed. -/
def HttpResponse.ofReload : Except Failure Report → HttpResponse
  | .ok report => .of 200 (.json report.toJson)
  | .error failure => .of 422 (.text failure.inline)

namespace HttpRequest

/-- The resource that a request is about. -/
def route? (r : HttpRequest) : Option Http.Route :=
  Http.Route.ofPath? (String.ofList (Http.splitTarget r.target).1)

/-- The limit that the query of a request sets. -/
def limit? (r : HttpRequest) : Except String (Option Nat) :=
  Http.limit? (Http.fields (Http.splitTarget r.target).2)

/-- Whether a request is to reload. -/
def reloads (r : HttpRequest) : Bool := r.method == "POST" && r.route? == some .reload

/-- A request for the sources with the most dropped packets, so many of them. -/
def top (n : Nat) : HttpRequest := ⟨"GET", "/stats/top?limit=" ++ Text.decimal n⟩

/-- The target of such a request is cut at the question mark. -/
theorem splitTarget_top (n : Nat) :
    Http.splitTarget (top n).target = ("/stats/top".toList, "limit=".toList ++ Text.digits n) := by
  have hlist : (top n).target.toList =
      "/stats/top".toList ++ '?' :: ("limit=".toList ++ Text.digits n) := by
    rw [top, Text.decimal, String.toList_append, String.toList_ofList (l := Text.digits n)]
    rfl
  -- A target that starts with a slash has neither scheme nor host.
  have hhost : Http.withoutHost (top n).target.toList = (top n).target.toList := by
    rw [hlist]
    rfl
  have hwhole : (top n).target.toList.takeWhile (· != '#') = (top n).target.toList := by
    rw [List.takeWhile_eq_self_iff, hlist]
    intro c hc
    rw [bne_iff_ne]
    rintro rfl
    rcases List.mem_append.1 hc with hc | hc
    · exact absurd hc (by decide)
    · rcases List.mem_append.1 (List.mem_of_ne_of_mem (by decide) hc) with hc | hc
      · exact absurd hc (by decide)
      · exact Text.notMem_digits (by decide) n hc
  rw [Http.splitTarget, hhost, hwhole, hlist, Text.splitOnce_append _ (by decide)]

/-- It is about these sources. -/
theorem route?_top (n : Nat) : (top n).route? = some .top := by
  rw [route?, splitTarget_top]
  rfl

end HttpRequest

namespace Http

/-- Digits mean themselves in a query. -/
theorem decode_digits (n : Nat) : decode (Text.digits n) = Text.digits n := by
  have hall : ∀ s : List Char, (∀ c ∈ s, c.isDigit = true) → decode s = s := by
    intro s hs
    induction s with
    | nil => rfl
    | cons c s ih =>
      have hrest := ih fun d hd => hs d (List.mem_cons_of_mem c hd)
      have hc := hs c List.mem_cons_self
      rw [decode, hrest]
      · rintro rfl
        exact absurd hc (by decide)
      · rintro a b rest rfl
        exact absurd hc (by decide)
  exact hall _ fun c hc => Text.isDigit_of_mem_digits hc

/-- The query of a request for so many sources has one field. -/
theorem fields_top (n : Nat) :
    fields ("limit=".toList ++ Text.digits n) = [("limit".toList, Text.digits n)] := by
  have hmem : '&' ∉ "limit=".toList ++ Text.digits n := fun h =>
    (List.mem_append.1 h).elim (by decide) (Text.notMem_digits (by decide) n)
  have hsplit : Text.split '&' ("limit=".toList ++ Text.digits n) =
      ["limit=".toList ++ Text.digits n] := Text.split_of_notMem hmem
  have hcut : Text.splitOnce '=' ("limit=".toList ++ Text.digits n) =
      some ("limit".toList, Text.digits n) :=
    Text.splitOnce_append (Text.digits n) (by decide : '=' ∉ "limit".toList)
  have hkept : (["limit=".toList ++ Text.digits n].filter fun field => !field.isEmpty) =
      ["limit=".toList ++ Text.digits n] := rfl
  rw [fields, hsplit, hkept, List.map_singleton, hcut]
  exact congrArg (fun value => [("limit".toList, value)]) (decode_digits n)

end Http

/-- A request for so many sources sets this limit, if it is a number of 64 bits. -/
theorem HttpRequest.limit?_top {n : Nat} (hn : n < UInt64.size) :
    (top n).limit? = .ok (some n) := by
  have hnamed : ([("limit".toList, Text.digits n)].filter fun field =>
      field.1 = "limit".toList) = [("limit".toList, Text.digits n)] := rfl
  have hvalue : (Text.lax? (Text.digits n)).filter (· < UInt64.size) = some n := by
    rw [Text.lax?_digits, Option.filter_some, if_pos (decide_eq_true hn)]
  rw [limit?, splitTarget_top, Http.fields_top, Http.limit?, hnamed]
  simp only [hvalue]
  rfl

namespace Http

variable {σ : Type} [Counter σ] {s : Service σ} {clock : UInt64} {path : String}
  {content : Except Errno ByteArray} {r : HttpRequest}

/-- Reading the statistics changes nothing. -/
theorem service_withStatistics (s : Service σ) (encode : Statistics → Json) :
    (withStatistics s encode).service = s := by
  rw [withStatistics]
  split <;> rfl

/-- Reading a resource changes nothing. -/
theorem service_read (s : Service σ) (query : List Char) (route : Route) :
    (read s query route).service = s := by
  cases route with
  | index => rfl
  | statistics => exact service_withStatistics s _
  | top =>
    rw [read]
    split
    next => rfl
    next => exact service_withStatistics s _
  | generation => rfl
  | reload => rfl

variable [Store σ]

/-- The method and the resource decide about the answer. -/
theorem respond_eq :
    respond s clock path content r =
      if r.method = "OPTIONS" then unchanged s (.of 200 .empty)
      else
        match r.route? with
        | none => unchanged s (.of 404 .empty)
        | some .reload =>
          if r.method = "POST" then reload s clock path content
          else unchanged s (.of 405 .empty)
        | some route =>
          let exchange := read s (splitTarget r.target).2 route
          if r.method = "GET" then exchange
          else if r.method = "HEAD" then
            { exchange with response := exchange.response.withoutBody }
          else unchanged s (.of 405 .empty) := rfl

/-- A request to reload does what a reload does, and is answered with its outcome. -/
theorem respond_of_reloads (h : r.reloads = true) :
    respond s clock path content r =
      let result := s.reload clock path content
      ⟨.ofReload result.outcome, result.service, result.events⟩ := by
  obtain ⟨hmethod, hroute⟩ := Bool.and_eq_true_iff.1 h
  rw [respond_eq, eq_of_beq hmethod, eq_of_beq hroute]
  simp only [if_neg (by decide : "POST" ≠ "OPTIONS"), if_true, reload]
  cases (s.reload clock path content).outcome <;> rfl

/-- All other requests change nothing. -/
theorem service_respond (h : r.reloads = false) :
    (respond s clock path content r).service = s := by
  rw [respond_eq]
  split
  next => rfl
  next =>
    split
    next => rfl
    next hroute =>
      split
      next hmethod =>
        have hreloads : r.reloads = true := by rw [HttpRequest.reloads, hmethod, hroute]; rfl
        exact absurd (h.symm.trans hreloads) Bool.false_ne_true
      next => rfl
    next route _ _ =>
      have hread := service_read s (splitTarget r.target).2 route
      simp only
      split
      next => exact hread
      next =>
        split
        next => exact hread
        next => rfl

/-- A request to read a resource is answered with it. -/
theorem respond_get {route : Route} (hmethod : r.method = "GET") (hroute : r.route? = some route) :
    respond s clock path content r = read s (splitTarget r.target).2 route := by
  rw [respond_eq, hmethod, hroute]
  cases route <;> rfl

/-- The statistics are answered as a document with a list of entries. -/
theorem respond_statistics {report : Statistics} (hreport : s.statistics = .ok report)
    (hmethod : r.method = "GET") (hroute : r.route? = some .statistics) :
    (respond s clock path content r).response =
      .of 200 (.json (.object [("totals", report.totals.toJson),
        ("entries", .array (report.entries.map SourceTally.toJson))])) := by
  rw [respond_get hmethod hroute, read, withStatistics, hreport]
  rfl

/-- The sources with the most dropped packets are answered as the first ones of the same list, as
many as the limit says. -/
theorem respond_top {report : Statistics} (hreport : s.statistics = .ok report)
    (hmethod : r.method = "GET") (hroute : r.route? = some .top) {n : Nat}
    (hlimit : r.limit? = .ok (some n)) :
    let entries := report.entries.map SourceTally.toJson
    (respond s clock path content r).response =
      .of 200 (.json (.array (entries.take (min n entries.length)))) := by
  intro entries
  have hlimit' : Http.limit? (fields (splitTarget r.target).2) = .ok (some n) := hlimit
  rw [respond_get hmethod hroute, read, hlimit']
  simp only [withStatistics, hreport]
  rw [← List.take_eq_take_min, ← List.map_take]
  rfl

end Http

end SourceFilter
