import PanelExport.Session.Basic

/-!
# Sessions in time

Calls of one session, one after another or at the same time. The server is a function from what is
asked to what it answers at that moment; a call whose request is held keeps the answer that was
given then, and goes on when it is let go. With a transport, which takes a request to a server and
brings the reply back, a server answers the calls of a session.

* `Session.run_ends`: a call that has ended sends nothing more.
-/

namespace PanelExport

/-- What the server says to each call. -/
abbrev Responder := ServerCall → Logged CallFault Document

/-- The kinds of requests that a session sends. -/
inductive RequestKind where
  | dashboard
  | results
  deriving DecidableEq

/-- The kind of a request. -/
def ServerCall.kind : ServerCall → RequestKind
  | .dashboard _ => .dashboard
  | .results _ => .results

/-- Where a call stands. -/
inductive CallState where
  | ended (outcome : Outcome)
  /-- The request was sent, and the answer to it is held. -/
  | held (waiting : Waiting) (reply : Logged CallFault Document)

/-- A stretch of a session's time: how it ends, what was sent and what was told. -/
structure Stretch (α : Type) where
  session : Session
  sent : List ServerCall
  events : List Event
  result : α

/-- How many replies a call may still need after a step. -/
def Step.rank (step : Step) : Nat :=
  match step.next with
  | .ends _ => 0
  | .waits w => w.rank + 1

theorem Step.rank_resume_lt (s : Session) (reply : Except CallFault Document) (w : Waiting) :
    (s.resume reply w).rank < w.rank + 1 := by
  unfold Step.rank
  split
  · exact Nat.succ_pos _
  · rename_i h
    exact Nat.succ_lt_succ (Session.rank_resume_lt h)

namespace Session

/-- A call goes on until it ends, or until it sends a request of the kind that is held. -/
def run (respond : Responder) (held? : Option RequestKind) (step : Step) : Stretch CallState :=
  match _h : step.next with
  | .ends outcome => ⟨step.session, [], step.events, .ended outcome⟩
  | .waits w =>
    let request := step.session.request w
    let reply := respond request
    if held? = some request.kind then ⟨step.session, [request], step.events, .held w reply⟩
    else
      let rest := run respond held? (step.session.resume reply.outcome w)
      ⟨rest.session, request :: rest.sent, step.events ++ reply.events ++ rest.events,
        rest.result⟩
termination_by step.rank
decreasing_by
  have : step.rank = w.rank + 1 := by simp [Step.rank, _h]
  rw [this]
  exact Step.rank_resume_lt _ _ _

theorem run_ends {respond : Responder} {held? : Option RequestKind} {step : Step}
    {outcome : Outcome} (h : step.next = .ends outcome) :
    run respond held? step = ⟨step.session, [], step.events, .ended outcome⟩ := by
  rw [run]
  split <;> simp_all

/-- What a call came to that was not held. -/
def outcomeOf : CallState → Outcome
  | .ended outcome => outcome
  | .held _ _ => .nothing

/-- A call from its first step to its end. -/
def complete (respond : Responder) (step : Step) : Stretch Outcome :=
  let stretch := run respond none step
  ⟨stretch.session, stretch.sent, stretch.events, outcomeOf stretch.result⟩

/-- A panel is loaded and then exported. -/
def loadAndExport (s : Session) (respond : Responder) (options : ExportOptions) :
    Stretch Outcome :=
  let loaded := complete respond s.startLoad
  match loaded.result with
  | .failed _ => loaded
  | _ =>
    let exported := complete respond (loaded.session.startExport options)
    ⟨exported.session, loaded.sent ++ exported.sent, loaded.events ++ exported.events,
      exported.result⟩

end Session

/-! ## Calls at the same time -/

/-- What the server answers at the moment. -/
structure Answers where
  dashboard : Except CallFault Document
  results : Except CallFault Document

/-- The server that gives these answers. -/
def Answers.respond (a : Answers) : Responder
  | .dashboard _ => .ofExcept a.dashboard
  | .results _ => .ofExcept a.results

/-- What happens to a session next. -/
inductive Happening where
  | load
  | export (options : ExportOptions)
  | startLoad (held : RequestKind)
  | startExport (options : ExportOptions) (held : RequestKind)
  | release
  | close
  | answers (dashboard? results? : Option (Except CallFault Document))

/-- What a happening comes to at once. -/
inductive Result where
  | nothing
  | outcome (outcome : Outcome)
  | outcomes (outcomes : List Outcome)

/-- A session, the server's answers, and the calls that were started and not yet asked for. -/
structure Timeline where
  session : Session
  answers : Answers
  calls : List CallState

namespace Timeline

/-- A call is followed to its end. -/
def follow (t : Timeline) (step : Step) : Timeline × Stretch Result :=
  let stretch := Session.complete t.answers.respond step
  ({ t with session := stretch.session },
    ⟨stretch.session, stretch.sent, stretch.events, .outcome stretch.result⟩)

/-- A call is started and left to itself. -/
def start (t : Timeline) (held : RequestKind) (step : Step) : Timeline × Stretch Result :=
  let stretch := Session.run t.answers.respond (some held) step
  ({ t with session := stretch.session, calls := t.calls ++ [stretch.result] },
    ⟨stretch.session, stretch.sent, stretch.events, .nothing⟩)

/-- Calls are let go, one after the other, and each is followed to its end. -/
def releaseAll (respond : Responder) (s : Session) : List CallState → Stretch (List Outcome)
  | [] => ⟨s, [], [], []⟩
  | .ended outcome :: calls =>
    let rest := releaseAll respond s calls
    ⟨rest.session, rest.sent, rest.events, outcome :: rest.result⟩
  | .held w reply :: calls =>
    let stretch := Session.complete respond (s.resume reply.outcome w)
    let rest := releaseAll respond stretch.session calls
    ⟨rest.session, stretch.sent ++ rest.sent, reply.events ++ stretch.events ++ rest.events,
      stretch.result :: rest.result⟩

/-- All calls are let go. -/
def release (t : Timeline) : Timeline × Stretch Result :=
  let stretch := releaseAll t.answers.respond t.session t.calls
  ({ t with session := stretch.session, calls := [] },
    ⟨stretch.session, stretch.sent, stretch.events, .outcomes stretch.result⟩)

/-- What a happening does. -/
def advance (t : Timeline) : Happening → Timeline × Stretch Result
  | .load => t.follow t.session.startLoad
  | .export options => t.follow (t.session.startExport options)
  | .startLoad held => t.start held t.session.startLoad
  | .startExport options held => t.start held (t.session.startExport options)
  | .release => t.release
  | .close =>
    let session := t.session.close
    ({ t with session }, ⟨session, [], [], .nothing⟩)
  | .answers dashboard? results? =>
    let answers :=
      ⟨dashboard?.getD t.answers.dashboard, results?.getD t.answers.results⟩
    ({ t with answers }, ⟨t.session, [], [], .nothing⟩)

/-- What a row of happenings does, one stretch for each of them. -/
def advanceAll (t : Timeline) : List Happening → Timeline × List (Stretch Result)
  | [] => (t, [])
  | h :: hs =>
    let (t, stretch) := t.advance h
    let (t, stretches) := t.advanceAll hs
    (t, stretch :: stretches)

end Timeline

/-! ## Servers behind a transport -/

/-- The way to a server and back. -/
abbrev Transport := Request → Reply

namespace Server

/-- The request for a call of a session. -/
def requestFor (s : Server) : ServerCall → Request
  | .dashboard uid => s.dashboardRequest uid
  | .results batch => s.queryRequest batch.toDocument

/-- The answer to a call of a session. -/
def respond (s : Server) (transport : Transport) : Responder := fun call =>
  let request := s.requestFor call
  request.outcome (transport request)

/-- The requests that went out for some calls. -/
def requestsFor (s : Server) (calls : List ServerCall) : List Request :=
  calls.filterMap fun call => (s.requestFor call).sent?

end Server

end PanelExport
