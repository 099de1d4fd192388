import PanelExport.Console.Report
import PanelExport.Session.Timeline

/-!
# Courses of commands

What a command does, step by step: what it prints, what it tells the log and which requests it
sends, up to a value or an early end.

* `Course.bind_ok`: the steps of a second course follow those of the first.
* `Course.bind_error`: after an early end nothing more is done.
-/

namespace PanelExport

/-- The end that a fault brings: failures are foreseen, other faults are not. -/
def Ending.ofFault : RunFault → Ending
  | .failure f => .failed f
  | fault => .unexpected fault.kind fault.message

/-- What is done on the way to a value or an early end. -/
structure Course (α : Type) where
  printed : List Item
  events : List Event
  sent : List Request
  outcome : Except Ending α

namespace Course

/-- Nothing is done, and there is a value. -/
def pure {α : Type} (a : α) : Course α := ⟨[], [], [], .ok a⟩

/-- One course after another. -/
def bind {α β : Type} (x : Course α) (f : α → Course β) : Course β :=
  match x.outcome with
  | .ok a =>
    let y := f a
    ⟨x.printed ++ y.printed, x.events ++ y.events, x.sent ++ y.sent, y.outcome⟩
  | .error e => ⟨x.printed, x.events, x.sent, .error e⟩

instance : Monad Course where
  pure := pure
  bind := bind

/-- Something is printed. -/
def print (items : List Item) : Course Unit := ⟨items, [], [], .ok ()⟩

/-- A value, or the early end that a fault brings. -/
def ofExcept {ε α : Type} (toEnding : ε → Ending) (x : Except ε α) : Course α :=
  ⟨[], [], [], x.mapError toEnding⟩

/-- The value of a call that did not fail. -/
def succeeded {α : Type} (a : α) : Outcome → Except Ending α
  | .failed fault => .error (.ofFault fault)
  | _ => .ok a

/-- A call of a session with a server is followed to its end. -/
def follow (server : Server) (stretch : Stretch Outcome) : Course (Session × Outcome) :=
  ⟨[], stretch.events, server.requestsFor stretch.sent,
    succeeded (stretch.session, stretch.result) stretch.result⟩

theorem bind_ok {α β : Type} {x : Course α} {a : α} (h : x.outcome = .ok a) (f : α → Course β) :
    bind x f = ⟨x.printed ++ (f a).printed, x.events ++ (f a).events, x.sent ++ (f a).sent,
      (f a).outcome⟩ := by
  simp [bind, h]

theorem bind_error {α β : Type} {x : Course α} {e : Ending} (h : x.outcome = .error e)
    (f : α → Course β) : bind x f = ⟨x.printed, x.events, x.sent, .error e⟩ := by
  simp [bind, h]

end Course

end PanelExport
