import PanelExport.Document.Display
import PanelExport.Document.Reader
import PanelExport.Log.Event
import PanelExport.Remote.Request
import PanelExport.Text.Encoded

/-!
# Replies of the dashboard server

How a call ends: with the document that the server sent, or with a fault that says what went wrong.
Only a reply with a status of success gives a document; an empty one stands for an empty object.

* `Request.result_empty`: an empty reply of success is an empty object.
-/

namespace PanelExport

/-- How the way to the server and back ends. -/
inductive Reply where
  | answered (status : Nat) (body : List UInt8)
  | unreachable (reason : String)

/-- Why a call gives no document. -/
structure RemoteFault where
  message : String
  /-- The status of the reply, if it was a refusal. -/
  status? : Option Nat
  /-- What the server said about the refusal. -/
  body : Document

/-- How a call may end without a document. -/
inductive CallFault where
  | failed (fault : RemoteFault)
  /-- The request goes to no address. -/
  | address (fault : AddressFault)
  /-- The document is nested too deeply to be read. -/
  | tooDeep

/-- Why bytes are no document. -/
inductive BytesFault where
  | encoding (fault : EncodingFault)
  | document (text : List Char) (fault : ReadFault)

/-- The wording of a fault. -/
def BytesFault.message : BytesFault → String
  | .encoding fault => fault.message
  | .document text fault => fault.message text

/-- The document that some bytes are. -/
def readBytes (bytes : List UInt8) : Except BytesFault Document := do
  let text ← (Encoded.read bytes).mapError .encoding
  (Document.readWhole text).mapError (.document text)

/-- The status says that the request was carried out. -/
def isSuccess (status : Nat) : Bool := status / 100 = 2

/-- How a refusal is worded. -/
def describe (status : Nat) (body : Document) : String :=
  let message := body.field "message"
  "HTTP " ++ toString status ++ if message.isTruthy then ": " ++ message.shown else ""

namespace Request

/-- The fields that every event of a request has. -/
def fields (r : Request) : Fields :=
  [("method", .text r.method.name), ("url", .text r.url)]

/-- The outcome for a reply that is no document. -/
def unreadable (r : Request) (reason : String) : Logged CallFault Document := do
  Logged.log ⟨.warning, "grafana_invalid_json", r.fields ++ [("error", .text reason)]⟩
  Logged.throw (.failed ⟨"Invalid JSON from " ++ r.url, none, .null⟩)

/-- The outcome for a reply of success. -/
def accepted (r : Request) (body : List UInt8) : Logged CallFault Document :=
  if body.isEmpty then return .object []
  else match readBytes body with
    | .ok d => return d
    | .error (.document _ .tooDeep) => Logged.throw .tooDeep
    | .error fault => r.unreadable fault.message

/-- The outcome for a refusal. A body that is no document is taken as a text. -/
def refused (r : Request) (status : Nat) (body : List UInt8) : Logged CallFault Document := do
  let body ← match readBytes body with
    | .ok d => Logged.pure d
    | .error (.document _ .tooDeep) => Logged.throw .tooDeep
    | .error _ => Logged.pure (.text (Utf8.lossy body))
  Logged.log ⟨.warning, "grafana_http_error", ("status", .int status) :: r.fields⟩
  Logged.throw (.failed ⟨describe status body, some status, body⟩)

/-- The outcome of a call that is answered in some way. -/
def result (r : Request) : Reply → Logged CallFault Document
  | .answered status body => if isSuccess status then r.accepted body else r.refused status body
  | .unreachable reason => do
    Logged.log ⟨.warning, "grafana_network_error", r.fields ++ [("error", .text reason)]⟩
    Logged.throw (.failed ⟨reason, none, .null⟩)

/-- The outcome of a call to an address that is answered in some way. An answer from a place at a
server that is not named is not taken. -/
def resultFrom (r : Request) (a : Address) (reply : Reply) : Logged CallFault Document :=
  match reply with
  | .answered _ _ =>
    if a.isAbsolute then r.result reply
    else r.unreadable ("unknown url type: " ++ quoted a.text)
  | .unreachable _ => r.result reply

/-- The outcome of a call, which is answered only if the request can be sent. -/
def outcome (r : Request) (reply : Reply) : Logged CallFault Document :=
  match r.address with
  | .error fault => Logged.throw (.address fault)
  | .ok a =>
    match r.sendFault? with
    | some fault => r.unreadable fault.message
    | none => r.resultFrom a reply

theorem result_empty (r : Request) {status : Nat} (h : isSuccess status = true) :
    r.result (.answered status []) = ⟨[], .ok (.object [])⟩ := by
  simp [result, h, accepted]
  rfl

end Request

end PanelExport
