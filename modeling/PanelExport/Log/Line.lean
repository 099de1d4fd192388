import PanelExport.Log.Event
import PanelExport.Text.Wording

/-!
# Log lines

An event is written as one object if its level is at or above a threshold. The object holds the
fields of the context, those of the event, its name and its level, and the time of writing.

* `Threshold.ofName?_info`: the names of the levels are written in capitals.
-/

namespace PanelExport

/-- The least rank that is written; zero or less writes all. -/
structure Threshold where
  rank : Int
  deriving DecidableEq

namespace Threshold

/-- The threshold in use when none is set. -/
def standard : Threshold := ⟨Level.info.rank⟩

/-- The names of thresholds. -/
def names : List (String × Int) :=
  [("CRITICAL", 50), ("FATAL", 50), ("ERROR", 40), ("WARN", 30), ("WARNING", 30), ("INFO", 20),
    ("DEBUG", 10), ("NOTSET", 0)]

/-- The threshold of a name. -/
def ofName? (name : String) : Option Threshold :=
  (names.lookup name).map (⟨·⟩)

/-- What is said about a name without a threshold. -/
def unknownMessage (name : String) : String :=
  "Unknown level: " ++ quoted name

/-- An event of this level is written. -/
def admits (t : Threshold) (level : Level) : Bool :=
  t.rank ≤ level.rank

theorem ofName?_info : ofName? "INFO" = some standard := by
  decide +kernel

end Threshold

/-- The names of fields that are no part of a line: the time is that of writing, and where an event
comes from is not told. -/
def unwrittenNames : List String := ["timestamp", "exc_info", "stack_info"]

/-- The fields of a line without the time. The name and the level win over fields of these names. -/
def Event.line (e : Event) : Fields :=
  Document.put "level" (.text e.level.name)
    (Document.put "event" (.text e.name) (e.fields.filter fun f => !unwrittenNames.contains f.1))

/-- The events that a threshold admits, as lines. -/
def logLines (t : Threshold) (events : List Event) : List Fields :=
  (events.filter fun e => t.admits e.level).map Event.line

end PanelExport
