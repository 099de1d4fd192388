import PanelExport.Document.Basic

/-!
# Log events

What a computation tells about its course, in order, beside what it comes to. An event has a level,
a name and named values.
-/

namespace PanelExport

/-- The weight of an event. -/
inductive Level where
  | debug
  | info
  | warning
  | error
  | critical
  deriving DecidableEq

/-- The name of a level. -/
def Level.name : Level → String
  | .debug => "debug"
  | .info => "info"
  | .warning => "warning"
  | .error => "error"
  | .critical => "critical"

/-- The rank of a level. -/
def Level.rank : Level → Int
  | .debug => 10
  | .info => 20
  | .warning => 30
  | .error => 40
  | .critical => 50

/-- All levels, the lightest first. -/
def Level.all : List Level := [.debug, .info, .warning, .error, .critical]

/-- One thing that happened. -/
structure Event where
  level : Level
  name : String
  fields : Fields

/-- The names that an event has for itself, so that none of its own fields can have them. -/
def Event.reservedNames : List String := ["event", "self", "method_name"]

/-- Fields that an event can have. -/
def Event.admits (fields : Fields) : Bool :=
  fields.all fun f => !reservedNames.contains f.1

/-- The event in a context; its own fields win over those of the context. -/
def Event.within (context : Fields) (e : Event) : Event :=
  { e with fields := Document.ofEntries (context ++ e.fields) }

/-- An outcome and the events on the way to it. -/
structure Logged (ε α : Type) where
  events : List Event
  outcome : Except ε α

namespace Logged

/-- An outcome without events. -/
def ofExcept {ε α : Type} (outcome : Except ε α) : Logged ε α := ⟨[], outcome⟩

/-- A value without events. -/
def pure {ε α : Type} (a : α) : Logged ε α := ⟨[], .ok a⟩

/-- A fault without events. -/
def throw {ε α : Type} (e : ε) : Logged ε α := ⟨[], .error e⟩

/-- One computation after another. -/
def bind {ε α β : Type} (x : Logged ε α) (f : α → Logged ε β) : Logged ε β :=
  match x.outcome with
  | .ok a => ⟨x.events ++ (f a).events, (f a).outcome⟩
  | .error e => ⟨x.events, .error e⟩

instance {ε : Type} : Monad (Logged ε) where
  pure := pure
  bind := bind

/-- One event. -/
def log {ε : Type} (e : Event) : Logged ε Unit := ⟨[e], .ok ()⟩

/-- One event if a condition holds. -/
def logIf {ε : Type} (condition : Bool) (e : Event) : Logged ε Unit :=
  ⟨if condition then [e] else [], .ok ()⟩

/-- The same course with another kind of fault. -/
def mapError {ε φ α : Type} (f : ε → φ) (x : Logged ε α) : Logged φ α :=
  ⟨x.events, x.outcome.mapError f⟩

end Logged

end PanelExport
