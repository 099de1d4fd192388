import PanelExport.Proofs.Document.Reading
import PanelExport.Proofs.Text.Utf8
import PanelExport.Session.Timeline

/-!
# How calls end

A call whose request goes out ends with a document exactly if the reply accepts the request and is
empty or spells the document. Every other reply is a failure that knows the status of a refusal, and
what waits for the call ends with a failure of its own kind that passes the status on. Bytes are
read also where they encode a half of a character that stands alone; which document is read is said
of the replies without such halves.

* `readBytes_eq_ok_iff`, `readBytes_tooDeep_iff`: what bytes are read as.
* `Request.result_cases`: the two ways in which a reply is taken.
* `Session.complete_failed`: what a session makes of a failed call.
* `Request.outcome_typed`: all of it, from any request to the end of a call of a session.
-/

namespace PanelExport

open Document

/-! ## Bytes -/

/-- Some bytes encode a text that spells a document in a format, but for blanks around it. If the
format has no halves of characters that stand alone, the bytes encode none either. -/
def Encodes (f : Format) (bytes : List UInt8) (d : Document) : Prop :=
  ∃ ns v text w, Encoded.numbers bytes = .ok ns ∧ (f.isWhole = true → ∀ n ∈ ns, isHalf n = false) ∧
    ns.map unitChar = v ++ (text ++ w) ∧ IsBlanks v ∧ IsBlanks w ∧ Spelled f depthLimit d text

/-- Some bytes encode a text that is nested too deeply, perhaps behind blanks. -/
def EncodesTooDeep (bytes : List UInt8) : Prop :=
  ∃ v text, Encoded.read bytes = .ok (v ++ text) ∧ IsBlanks v ∧ IsDeep digitLimit depthLimit text

section

variable {bytes : List UInt8}

/-- What is encoded without halves that stand alone is encoded in the format that the reader
follows. -/
theorem Encodes.torn {d : Document} (h : Encodes (.lenient digitLimit) bytes d) :
    Encodes (.torn digitLimit) bytes d := by
  obtain ⟨ns, v, text, w, hns, -, htext, hv, hw, hspelled⟩ := h
  have htorn := hspelled.mono (Format.lenient_within_torn _ _) (Nat.le_refl _) (Nat.le_refl _)
  exact ⟨ns, v, text, w, hns, nofun, htext, hv, hw, htorn⟩

theorem readBytes_eq_ok_iff {d : Document} :
    readBytes bytes = .ok d ↔ Encodes (.torn digitLimit) bytes d := by
  constructor
  · intro h
    obtain ⟨cs, hcs, hread⟩ := bind_eq_ok.1 h
    obtain ⟨ns, hns, rfl⟩ := exceptMap_eq_ok.1 (mapError_eq_ok.1 hcs)
    obtain ⟨v, text, w, htext, hv, hw, hspelled⟩ := readWhole_eq_ok_iff.1 (mapError_eq_ok.1 hread)
    exact ⟨ns, v, text, w, hns, nofun, htext, hv, hw, hspelled⟩
  · rintro ⟨ns, v, text, w, hns, -, htext, hv, hw, hspelled⟩
    have hread := readWhole_eq_ok_iff.2 ⟨v, text, w, htext, hv, hw, hspelled⟩
    exact bind_eq_ok.2 ⟨_, mapError_eq_ok.2 (exceptMap_eq_ok.2 ⟨ns, hns, rfl⟩),
      mapError_eq_ok.2 hread⟩

/-- A half of a character that stands alone is no fault. -/
example : (readBytes [0x22, 0xED, 0xA0, 0x80, 0x22]).isOk = true := by decide +kernel

theorem readBytes_tooDeep_iff :
    (∃ cs, readBytes bytes = .error (.document cs .tooDeep)) ↔ EncodesTooDeep bytes := by
  constructor
  · rintro ⟨cs, h⟩
    rcases bind_eq_error.1 h with h | ⟨cs', hcs, h⟩
    · obtain ⟨_, -, h⟩ := mapError_eq_error.1 h
      cases h
    · obtain ⟨_, hread, h⟩ := mapError_eq_error.1 h
      cases h
      obtain ⟨v, text, rfl, hv, hdeep⟩ := readWhole_tooDeep_iff.1 hread
      exact ⟨v, text, mapError_eq_ok.1 hcs, hv, hdeep⟩
  · rintro ⟨v, text, hcs, hv, hdeep⟩
    have hread := readWhole_tooDeep_iff.2 ⟨v, text, rfl, hv, hdeep⟩
    exact ⟨_, bind_eq_error.2 (.inr ⟨_, mapError_eq_ok.2 hcs,
      mapError_eq_error.2 ⟨_, hread, rfl⟩⟩)⟩

end

/-! ## Replies -/

namespace Reply

/-- A status of success. -/
def IsSuccess (status : Nat) : Prop := 200 ≤ status ∧ status < 300

theorem isSuccess_iff {status : Nat} : isSuccess status = true ↔ IsSuccess status := by
  simp only [isSuccess, IsSuccess, decide_eq_true_eq]
  omega

/-- A reply of success with a document of a format; without a body it is the empty object. -/
inductive Brings (f : Format) : Reply → Document → Prop
  | nothing {status : Nat} (success : IsSuccess status) :
    Brings f (.answered status []) (.object [])
  | document {status : Nat} {body : List UInt8} {d : Document} (success : IsSuccess status)
    (nonempty : body ≠ []) (encodes : Encodes f body d) : Brings f (.answered status body) d

/-- The reply brings something that can be read. -/
def IsRead (reply : Reply) : Prop := ∃ d, reply.Brings (.torn digitLimit) d

theorem Brings.torn {reply : Reply} {d : Document} (h : reply.Brings (.lenient digitLimit) d) :
    reply.Brings (.torn digitLimit) d := by
  cases h with
  | nothing success => exact .nothing success
  | document success nonempty encodes => exact .document success nonempty encodes.torn

/-- The status of a refusal. -/
def refusal? : Reply → Option Nat
  | .answered status _ => if isSuccess status then none else some status
  | .unreachable _ => none

/-- The body of a reply is nested too deeply to be read. -/
def IsTooDeep : Reply → Prop
  | .answered _ body => EncodesTooDeep body
  | .unreachable _ => False

end Reply

/-! ## Calls -/

namespace Request

/-- The request is one that goes out: it has an address at a named server, and all of it can be
sent. -/
structure GoesOut (r : Request) : Prop where
  address : ∃ a, r.address = .ok a ∧ a.isAbsolute = true
  sendable : r.sendFault? = none

/-- What goes out is the request, at the address in its normal form. -/
theorem GoesOut.exists_sent {r : Request} (h : r.GoesOut) :
    ∃ sent, r.sent? = some sent ∧ sent.method = r.method ∧ sent.body? = r.body? := by
  obtain ⟨a, ha, -⟩ := h.address
  refine ⟨{ r with url := a.text, headers := r.headersFor a }, ?_, rfl, rfl⟩
  simp only [sent?, ha, h.sendable]

theorem GoesOut.outcome_eq {r : Request} (h : r.GoesOut) (reply : Reply) :
    r.outcome reply = r.result reply := by
  obtain ⟨a, ha, habsolute⟩ := h.address
  simp only [outcome, ha, h.sendable, resultFrom, habsolute, if_true]
  cases reply <;> rfl

/-- What is read of the body of a reply, if it is not nested too deeply. -/
theorem accepted_cases (r : Request) {body : List UInt8} (hdeep : ¬ EncodesTooDeep body)
    (hnonempty : body ≠ []) :
    (∃ d, Encodes (.torn digitLimit) body d ∧ (r.accepted body).outcome = .ok d) ∨
    ((¬ ∃ d, Encodes (.torn digitLimit) body d) ∧
      (r.accepted body).outcome =
        .error (.failed ⟨"Invalid JSON from " ++ r.url, none, .null⟩)) := by
  have hempty : body.isEmpty = false := by simpa using hnonempty
  unfold accepted
  rw [hempty, if_neg Bool.false_ne_true]
  split
  · rename_i d hread
    exact .inl ⟨d, readBytes_eq_ok_iff.1 hread, rfl⟩
  · rename_i hread
    exact absurd (readBytes_tooDeep_iff.1 ⟨_, hread⟩) hdeep
  · rename_i hread
    refine .inr ⟨?_, rfl⟩
    rintro ⟨d, hd⟩
    rw [readBytes_eq_ok_iff.2 hd] at hread
    cases hread

/-- A refusal fails with its status, whatever its body is. -/
theorem refused_failed (r : Request) (status : Nat) {body : List UInt8}
    (hdeep : ¬ EncodesTooDeep body) :
    ∃ said, (r.refused status body).outcome =
      .error (.failed ⟨describe status said, some status, said⟩) := by
  unfold refused
  split
  · exact ⟨_, rfl⟩
  · rename_i hread
    exact absurd (readBytes_tooDeep_iff.1 ⟨_, hread⟩) hdeep
  · exact ⟨_, rfl⟩

/-- A reply brings a document, or it is a failure with the status of a refusal. -/
theorem result_cases (r : Request) {reply : Reply} (hdeep : ¬ reply.IsTooDeep) :
    (∃ d, reply.Brings (.torn digitLimit) d ∧ (r.result reply).outcome = .ok d) ∨
    (¬ reply.IsRead ∧ ∃ fault, fault.status? = reply.refusal? ∧
      (r.result reply).outcome = .error (.failed fault)) := by
  cases reply with
  | unreachable reason =>
    refine .inr ⟨?_, ⟨reason, none, .null⟩, rfl, rfl⟩
    rintro ⟨d, h⟩
    cases h
  | answered status body =>
    by_cases hstatus : isSuccess status = true
    · have hsuccess := Reply.isSuccess_iff.1 hstatus
      by_cases hempty : body = []
      · subst hempty
        exact .inl ⟨.object [], .nothing hsuccess, by rw [result_empty r hstatus]⟩
      · simp only [result, Reply.refusal?, if_pos hstatus]
        refine (r.accepted_cases hdeep hempty).imp ?_ ?_
        · rintro ⟨d, hd, h⟩
          exact ⟨d, .document hsuccess hempty hd, h⟩
        · rintro ⟨hnone, h⟩
          refine ⟨?_, _, rfl, h⟩
          rintro ⟨d, hd⟩
          cases hd with
          | nothing _ => exact hempty rfl
          | document _ _ hd => exact hnone ⟨d, hd⟩
    · simp only [result, Reply.refusal?, if_neg hstatus]
      obtain ⟨said, h⟩ := r.refused_failed status hdeep
      refine .inr ⟨?_, _, rfl, h⟩
      rintro ⟨d, hd⟩
      cases hd with
      | nothing hsuccess => exact hstatus (Reply.isSuccess_iff.2 hsuccess)
      | document hsuccess _ _ => exact hstatus (Reply.isSuccess_iff.2 hsuccess)

end Request

/-- A reply brings one document only. -/
theorem Reply.Brings.unique {reply : Reply} {d d' : Document}
    (h : reply.Brings (.torn digitLimit) d) (h' : reply.Brings (.torn digitLimit) d') : d = d' := by
  cases h with
  | nothing _ =>
    cases h' with
    | nothing _ => rfl
    | document _ hnonempty _ => exact absurd rfl hnonempty
  | document _ hnonempty hd =>
    cases h' with
    | nothing _ => exact absurd rfl hnonempty
    | document _ _ hd' =>
      have := (readBytes_eq_ok_iff.2 hd).symm.trans (readBytes_eq_ok_iff.2 hd')
      exact Except.ok.inj this

/-- A request that goes out ends with what its reply brings, or with a failure. -/
theorem Request.GoesOut.outcome_cases {r : Request} (h : r.GoesOut) {reply : Reply}
    (hdeep : ¬ reply.IsTooDeep) :
    (∃ d, reply.Brings (.torn digitLimit) d ∧ (r.outcome reply).outcome = .ok d) ∨
    (¬ reply.IsRead ∧ ∃ fault, fault.status? = reply.refusal? ∧
      (r.outcome reply).outcome = .error (.failed fault)) := by
  rw [h.outcome_eq]
  exact r.result_cases hdeep

theorem Request.GoesOut.outcome_of_brings {r : Request} (h : r.GoesOut) {reply : Reply}
    (hdeep : ¬ reply.IsTooDeep) {d : Document} (hd : reply.Brings (.torn digitLimit) d) :
    (r.outcome reply).outcome = .ok d := by
  rcases h.outcome_cases hdeep with ⟨d', hd', hok⟩ | ⟨hnone, -⟩
  · rw [hok, hd.unique hd']
  · exact absurd ⟨d, hd⟩ hnone

/-! ## Sessions -/

namespace Session

/-- How a failed call ends what waits for it: a dashboard is not found, and a batch is refused with
the status. -/
def failureOf (s : Session) (fault : RemoteFault) : Waiting → Failure
  | .load | .panel _ => .dashboardNotFound s.params.dashboardUid fault.message
  | .results _ _ => .queryExecution ("Query execution failed: " ++ fault.message)
      [("dashboard_uid", .text s.params.dashboardUid),
        ("status", fault.status?.elim .null (.int ·))]

theorem resume_failed (s : Session) (fault : RemoteFault) (w : Waiting) :
    (s.resume (.error (.failed fault)) w).next =
      .ends (.failed (.failure (s.failureOf fault w))) := by
  cases w with
  | load => rfl
  | panel options => rfl
  | results options batch => rfl

/-- A call that waits goes on with the reply, unless its request is held. -/
theorem run_waits {respond : Responder} {step : Step} {w : Waiting} (h : step.next = .waits w) :
    run respond none step =
      let request := step.session.request w
      let rest := run respond none (step.session.resume (respond request).outcome w)
      ⟨rest.session, request :: rest.sent, step.events ++ (respond request).events ++ rest.events,
        rest.result⟩ := by
  rw [run]
  split
  · rename_i hends
    rw [h] at hends
    cases hends
  · rename_i w' hwaits
    rw [h] at hwaits
    cases hwaits
    rfl

/-- A call that ends with its next reply has sent one request. -/
theorem complete_of_ends {respond : Responder} {step last : Step} {w : Waiting} {outcome : Outcome}
    (hwaits : step.next = .waits w)
    (hlast : step.session.resume (respond (step.session.request w)).outcome w = last)
    (hends : last.next = .ends outcome) :
    complete respond step =
      ⟨last.session, [step.session.request w],
        step.events ++ (respond (step.session.request w)).events ++ last.events, outcome⟩ := by
  simp only [complete, run_waits hwaits, hlast, run_ends hends, outcomeOf]

/-- A step that waits for a call that fails is the last one: nothing else is sent. -/
theorem complete_failed {respond : Responder} {step : Step} {w : Waiting} {fault : RemoteFault}
    (hwaits : step.next = .waits w)
    (hfails : (respond (step.session.request w)).outcome = .error (.failed fault)) :
    (complete respond step).sent = [step.session.request w] ∧
    (complete respond step).result = .failed (.failure (step.session.failureOf fault w)) := by
  have hends := step.session.resume_failed fault w
  rw [← hfails] at hends
  rw [complete_of_ends hwaits rfl hends]
  exact ⟨rfl, rfl⟩

end Session

/-! ## From the request to the end -/

/-- If a reply is not nested too deeply, every request that goes out ends with a document exactly if
the reply brings one; where no half of a character stands alone in the reply, it is the document
that the reply brings. Otherwise the request ends with a failure that has the status of a refusal,
and no status if there was none. Where a call of a session waits for a reply that brings nothing,
one request goes out, and the call ends with the failure of what it asked for. -/
theorem Request.outcome_typed {reply : Reply} (hdeep : ¬ reply.IsTooDeep) :
    (∀ r : Request, r.GoesOut →
      (∃ sent, r.sent? = some sent ∧ sent.method = r.method ∧ sent.body? = r.body?) ∧
      ((∃ d, (r.outcome reply).outcome = .ok d) ↔ reply.IsRead) ∧
      ((∃ d, reply.Brings (.lenient digitLimit) d) →
        ∀ d, (r.outcome reply).outcome = .ok d ↔ reply.Brings (.lenient digitLimit) d) ∧
      (¬ reply.IsRead → ∃ fault, fault.status? = reply.refusal? ∧
        (r.outcome reply).outcome = .error (.failed fault))) ∧
    ∀ (v : Server) (transport : Transport) (step : Step) (w : Waiting), step.next = .waits w →
      (v.requestFor (step.session.request w)).GoesOut →
      transport (v.requestFor (step.session.request w)) = reply → ¬ reply.IsRead →
      ∃ sent fault, fault.status? = reply.refusal? ∧
        v.requestsFor (Session.complete (v.respond transport) step).sent = [sent] ∧
        (Session.complete (v.respond transport) step).result =
          .failed (.failure (step.session.failureOf fault w)) := by
  have hfails : ∀ r : Request, r.GoesOut → ¬ reply.IsRead →
      ∃ fault, fault.status? = reply.refusal? ∧
        (r.outcome reply).outcome = .error (.failed fault) := by
    intro r hr hnone
    exact ((hr.outcome_cases hdeep).resolve_left fun ⟨d, hd, _⟩ => hnone ⟨d, hd⟩).2
  refine ⟨fun r hr => ⟨hr.exists_sent, ⟨?_, ?_⟩, fun hbrings d => ⟨fun h => ?_, fun hd => ?_⟩,
    hfails r hr⟩, ?_⟩
  · rintro ⟨d, h⟩
    rcases hr.outcome_cases hdeep with ⟨d', hd', -⟩ | ⟨-, fault, -, herror⟩
    · exact ⟨d', hd'⟩
    · rw [herror] at h
      cases h
  · rintro ⟨d, hd⟩
    exact ⟨d, hr.outcome_of_brings hdeep hd⟩
  · obtain ⟨d', hd'⟩ := hbrings
    rw [hr.outcome_of_brings hdeep hd'.torn] at h
    exact Except.ok.inj h ▸ hd'
  · exact hr.outcome_of_brings hdeep hd.torn
  · intro v transport step w hwaits hout htransport hnone
    obtain ⟨fault, hstatus, hfault⟩ := hfails _ hout hnone
    obtain ⟨sent, hsent, -⟩ := hout.exists_sent
    have hresponse : (v.respond transport (step.session.request w)).outcome =
        .error (.failed fault) := by
      simp only [Server.respond, htransport, hfault]
    obtain ⟨hone, hresult⟩ := Session.complete_failed hwaits hresponse
    refine ⟨sent, fault, hstatus, ?_, hresult⟩
    rw [hone, Server.requestsFor, List.filterMap_cons, hsent]
    rfl

/-- A server that is down says so. -/
def downReply : Reply :=
  .answered 503 (Utf8.bytesOf "\x7b\"message\": \"down\"\x7d".toList)

/-- A named server. -/
def namedServer : Server := ⟨"https://g.example.com", some "key", none⟩

/-- An export that waits for the results of a query. -/
def awaitingStep : Step where
  session := .create ⟨"board", 1, ⟨"1", "2"⟩⟩ .standard .empty
  events := []
  next := .waits (.results ⟨none, none, true⟩ (.ofExprs ["up"] "ds" ⟨"1", "2"⟩ none none))

theorem Request.outcome_typed_down :
    ¬ downReply.IsTooDeep ∧ ¬ downReply.IsRead ∧
    (namedServer.dashboardRequest "board").GoesOut ∧
    (∃ fault : RemoteFault, fault.status? = some 503 ∧
      ((namedServer.dashboardRequest "board").outcome downReply).outcome =
        .error (.failed fault)) ∧
    ∃ (sent : Request) (fault : RemoteFault), fault.status? = some 503 ∧
      namedServer.requestsFor
        (Session.complete (namedServer.respond fun _ => downReply) awaitingStep).sent = [sent] ∧
      (Session.complete (namedServer.respond fun _ => downReply) awaitingStep).result =
        .failed (.failure (.queryExecution ("Query execution failed: " ++ fault.message)
          [("dashboard_uid", .text "board"), ("status", fault.status?.elim .null (.int ·))])) := by
  have hread : (readBytes (Utf8.bytesOf "\x7b\"message\": \"down\"\x7d".toList)).isOk = true := by
    decide +kernel
  have hdeep : ¬ downReply.IsTooDeep := by
    intro h
    obtain ⟨cs, hcs⟩ := readBytes_tooDeep_iff.2 h
    rw [hcs] at hread
    cases hread
  have hnone : ¬ downReply.IsRead := by
    rintro ⟨d, h⟩
    cases h with
    | document success _ _ => exact absurd success.2 (by decide)
  have hdashboard : (namedServer.dashboardRequest "board").GoesOut :=
    ⟨⟨_, rfl, by decide +kernel⟩, by decide +kernel⟩
  have hquery : (namedServer.requestFor (awaitingStep.session.request
      (.results ⟨none, none, true⟩ (.ofExprs ["up"] "ds" ⟨"1", "2"⟩ none none)))).GoesOut :=
    ⟨⟨_, rfl, by decide +kernel⟩, by decide +kernel⟩
  obtain ⟨hrequests, hsessions⟩ := Request.outcome_typed hdeep
  exact ⟨hdeep, hnone, hdashboard, (hrequests _ hdashboard).2.2.2 hnone,
    hsessions _ (fun _ => downReply) awaitingStep _ rfl hquery rfl hnone⟩

end PanelExport
