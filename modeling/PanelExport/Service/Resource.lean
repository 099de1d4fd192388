import PanelExport.Query.Report
import PanelExport.Service.PathPattern
import PanelExport.Settings.Basic

/-!
# Resources

What the service answers to a request: reports on queries under two paths, a sign of life, and pages
about itself. Each is a route, and the first route that has the path and the method of a request
answers it. A path that only its last slashes keep from being known leads to the one without them.

* `Service.answer_nowhere`: where nothing is, nothing is found.
* `Service.answer_refused`: what is asked for in no way that it offers is refused.
-/

namespace PanelExport.Service

/-- What is asked of the service. -/
structure Request where
  method : String
  path : String
  body : List UInt8
  /-- The site on whose behalf a browser asks. -/
  origin? : Option String

/-- What the service answers. -/
structure Response where
  status : Nat
  contentType? : Option String
  body : String
  /-- The path at which to ask again. -/
  location? : Option String := none
  /-- The site whose pages may read the answer. -/
  allowedOrigin? : Option String := none

/-- Why the service does not answer. -/
inductive Fault where
  /-- The path of a resource is no pattern. -/
  | pattern (fault : PatternFault)
  /-- The prefix in the settings ends with a slash. -/
  | prefixEnd
  /-- The sent list is nested too deeply. -/
  | tooDeep
  | number (fault : NumberFault)

/-- What the service offers. -/
inductive Resource where
  | report
  /-- The words in which a report is refused to those who do not post a list. -/
  | refusal
  | health
  /-- A page about the service; what it shows is not kept here. -/
  | page
  deriving DecidableEq

/-- A resource with the paths and the methods that lead to it. -/
structure Route where
  pattern : PathPattern
  methods : List String
  resource : Resource

/-! ## Routes -/

/-- The path under which a host passes requests on to the service. -/
def pluginPath (s : Settings) : String :=
  "/api/plugins/" ++ s.pluginId ++ "/resources"

/-- The paths of the pages. -/
def pagePaths (s : Settings) : List String :=
  [s.apiPrefix ++ "/openapi.json", s.apiPrefix ++ "/docs", "/docs/oauth2-redirect", "/redoc"]

/-- The paths of the reports. -/
def reportPaths (s : Settings) : List String :=
  [pluginPath s ++ "/parse", s.apiPrefix ++ "/parse"]

/-- The methods for which the reports have words of refusal. -/
def refusedMethods : List String := ["GET", "HEAD", "PUT", "PATCH", "DELETE", "OPTIONS"]

/-- The routes of a path, each a resource with its methods. -/
def routesAt (path : String) (offers : List (List String × Resource)) :
    Except Fault (List Route) := do
  let pattern ← (PathPattern.ofText path).mapError .pattern
  return offers.map fun (methods, resource) => ⟨pattern, methods, resource⟩

/-- The routes of the service. -/
def routes (s : Settings) : Except Fault (List Route) := do
  let pages ← (pagePaths s).mapM (routesAt · [(["GET", "HEAD"], .page)])
  let reports ← (reportPaths s).mapM (routesAt · [(["POST"], .report), (refusedMethods, .refusal)])
  if s.apiPrefix.toList.getLast? = some '/' then throw .prefixEnd
  let health ← routesAt "/health" [(["GET"], .health)]
  return pages.flatten ++ reports.flatten ++ health

/-- The route leads from a path. -/
def Route.isAt (path : String) (r : Route) : Bool :=
  r.pattern.covers path.toList

/-- A path without the slashes at its end. -/
def withoutEndSlashes (path : String) : String :=
  String.ofList (path.toList.reverse.dropWhile (· == '/')).reverse

/-- The origin that an answer names: every one, if the settings say so, or the one that asks. -/
def allowedOrigin (origins : List String) (origin? : Option String) : Option String :=
  match origin? with
  | none => none
  | some origin =>
    if origins.contains "*" then some "*"
    else if origins.contains origin then some origin
    else none

/-! ## Answers -/

/-- A plain text. -/
def plainText (status : Nat) (body : String) : Response :=
  { status, contentType? := some "text/plain; charset=utf-8", body }

/-- A written document. -/
def written (status : Nat) (body : String) : Response :=
  { status, contentType? := some "application/json", body }

/-- A document that says why there is nothing else. -/
def detail (status : Nat) (text : String) : Response :=
  written status ((Document.object [("detail", .text text)]).write .compact)

/-- The way to another path, where the request is to be made again as it is. -/
def redirection (path : String) : Response :=
  { status := 307, contentType? := none, body := "", location? := some path }

/-- The answer to a list that is posted. -/
def reportOn (body : List UInt8) (limit : Nat := Query.callLimit) : Except Fault Response :=
  match Query.readBody body with
  | .error (.document .tooDeep) => .error .tooDeep
  | .error _ => .ok (plainText 400 "invalid JSON body\n")
  | .ok texts? =>
    match (Query.Report.ofTexts texts? limit).outcome with
    | .ok report => .ok (written 200 report.body)
    | .error fault => .error (.number fault)

/-- The sign of life. -/
def healthBody : String :=
  (Document.object [("status", .text "healthy"), ("version", .text Release.version)]).write .compact

/-- The answer of a resource. -/
def Resource.answer (body : List UInt8) (limit : Nat) : Resource → Except Fault Response
  | .report => reportOn body limit
  | .refusal => .ok (plainText 405 "method not allowed\n")
  | .health => .ok (written 200 healthBody)
  | .page => .ok { status := 200, contentType? := some "text/html; charset=utf-8", body := "" }

/-- The answer where no route has the path: no path of the service ends with a slash, so one that
does may have been meant without it. -/
def answerElsewhere (rs : List Route) (path : String) : Response :=
  let short := withoutEndSlashes path
  if path ≠ short ∧ rs.any (Route.isAt short) then redirection short else detail 404 "Not Found"

/-- The answer that some routes give. -/
def answer (rs : List Route) (r : Request) (limit : Nat := Query.callLimit) :
    Except Fault Response :=
  match rs.filter (Route.isAt r.path) with
  | [] => .ok (answerElsewhere rs r.path)
  | here =>
    match here.find? (·.methods.contains r.method) with
    | some route => route.resource.answer r.body limit
    | none => .ok (detail 405 "Method Not Allowed")

/-- The answer to a request. -/
def respond (s : Settings) (r : Request) (limit : Nat := Query.callLimit) :
    Except Fault Response := do
  let response ← answer (← routes s) r limit
  return { response with allowedOrigin? := allowedOrigin s.origins r.origin? }

theorem answer_nowhere {rs : List Route} {r : Request} {limit : Nat}
    (h : rs.any (Route.isAt r.path) = false) (hs : withoutEndSlashes r.path = r.path) :
    answer rs r limit = .ok (detail 404 "Not Found") := by
  have : rs.filter (Route.isAt r.path) = [] := by simpa using h
  simp [answer, this, answerElsewhere, hs]

theorem answer_refused {rs : List Route} {r : Request} {limit : Nat}
    (h : rs.any (Route.isAt r.path) = true) (hm : ∀ route ∈ rs, r.method ∉ route.methods) :
    answer rs r limit = .ok (detail 405 "Method Not Allowed") := by
  have hne : rs.filter (Route.isAt r.path) ≠ [] := by
    obtain ⟨route, hr, hi⟩ := List.any_eq_true.1 h
    exact List.ne_nil_of_mem (List.mem_filter.2 ⟨hr, hi⟩)
  unfold answer
  split
  · next hn => exact absurd hn hne
  · split
    · next route hf =>
      have hr := (List.mem_filter.1 (List.mem_of_find?_eq_some hf)).1
      have hc := List.find?_some hf
      exact absurd (by simpa using hc) (hm route hr)
    · rfl

end PanelExport.Service
