import PanelExport.Document.Basic
import PanelExport.Numeral
import PanelExport.Remote.Address
import PanelExport.Settings.Basic

/-!
# Requests to the dashboard server

The two requests that a run sends: for a dashboard by its id, and for the results of a batch.

* `Server.base_of_noSlash`: an address without a slash at the end is used as it is.
-/

namespace PanelExport

/-- The server that holds dashboards and runs queries. -/
structure Server where
  url : String
  token? : Option String
  orgId? : Option Int

/-- How something is asked of a server. -/
inductive Method where
  | get
  | post
  deriving DecidableEq

/-- The name of a method. -/
def Method.name : Method → String
  | .get => "GET"
  | .post => "POST"

/-- What is asked of a server. -/
structure Request where
  method : Method
  url : String
  headers : List (String × String)
  body? : Option Document

namespace Server

/-- The server that the settings name. -/
def ofSettings (s : Settings) : Server := ⟨s.serverUrl, s.token?, s.orgId?⟩

/-- The address without slashes at the end. -/
def base (s : Server) : String :=
  String.ofList (s.url.toList.reverse.dropWhile (· == '/')).reverse

/-- The headers of every request. -/
def headers (s : Server) : List (String × String) :=
  [("content-type", "application/json"), ("user-agent", Release.agent)] ++
    (s.token?.filter (· ≠ "")).toList.map (fun token => ("authorization", "Bearer " ++ token)) ++
    s.orgId?.toList.map fun id => ("x-grafana-org-id", toString id)

/-- The request for the dashboard with an id. -/
def dashboardRequest (s : Server) (uid : String) : Request :=
  ⟨.get, s.base ++ "/api/dashboards/uid/" ++ percentEncoded uid, s.headers, none⟩

/-- The request for the results of a batch. -/
def queryRequest (s : Server) (batch : Document) : Request :=
  ⟨.post, s.base ++ "/api/ds/query", s.headers, some batch⟩

theorem base_of_noSlash {s : Server} (h : s.url.toList.getLast? ≠ some '/') :
    s.base = s.url := by
  unfold base
  cases hr : s.url.toList.reverse with
  | nil => simp_all
  | cons c cs =>
    have hc : c ≠ '/' := by
      rintro rfl
      rw [← List.head?_reverse, hr] at h
      exact h rfl
    rw [List.dropWhile_cons_of_neg (by simpa using hc), ← hr]
    simp

end Server

/-! ## What cannot be sent -/

/-- Why a request cannot be sent. -/
inductive SendFault where
  /-- A header has characters that cannot be sent, the first one `c` at `pos`, `size` in a row. -/
  | header (c : Char) (pos size : Nat)
  /-- The body has a number without a standard spelling. -/
  | number
  deriving DecidableEq

/-- The wording of a fault. -/
def SendFault.message : SendFault → String
  | .header c pos size =>
    "'ascii' codec can't encode character" ++
      (if size = 1 then " '" ++ String.ofList (escapedChar c) ++ "' in position " ++ toString pos
      else "s in position " ++ toString pos ++ "-" ++ toString (pos + size - 1)) ++
      ": ordinal not in range(128)"
  | .number => "Out of range float values are not JSON compliant"

/-- What cannot be sent of a header. -/
def asciiFault? (value : String) : Option SendFault :=
  let plain (c : Char) : Bool := c.toNat < 128
  match value.toList.dropWhile plain with
  | [] => none
  | c :: cs =>
    some (.header c (runLength plain value.toList) (1 + runLength (!plain ·) cs))

mutual

/-- All numbers of a document have a standard spelling. -/
def Document.isStandard : Document → Bool
  | .null | .bool _ | .int _ | .text _ => true
  | .float x => x.trunc?.isSome
  | .list items => allStandard items
  | .object entries => entriesStandard entries

/-- All numbers of some documents have a standard spelling. -/
def Document.allStandard : List Document → Bool
  | [] => true
  | d :: ds => d.isStandard && allStandard ds

/-- All numbers of some named documents have a standard spelling. -/
def Document.entriesStandard : List (String × Document) → Bool
  | [] => true
  | (_, d) :: es => d.isStandard && entriesStandard es

end

namespace Request

/-- Why a request cannot be sent, if it cannot. -/
def sendFault? (r : Request) : Option SendFault :=
  (r.headers.findSome? fun h => asciiFault? h.2).or
    (if r.body?.all Document.isStandard then none else some .number)

/-- Where a request goes: to an absolute address, or to a place at a server that is not named. -/
def address (r : Request) : Except AddressFault Address := do
  let a ← Address.ofText r.url
  return if a.isAbsolute then a else a.asPlace

/-- The headers of a request to an address: who asks is told in the words of the address. -/
def headersFor (r : Request) (a : Address) : List (String × String) :=
  match a.credentials? with
  | none => r.headers
  | some credentials => Document.put "authorization" credentials r.headers

/-- The request as it goes out, if it does. -/
def sent? (r : Request) : Option Request :=
  match r.address, r.sendFault? with
  | .ok a, none => some { r with url := a.text, headers := r.headersFor a }
  | _, _ => none

end Request

end PanelExport
