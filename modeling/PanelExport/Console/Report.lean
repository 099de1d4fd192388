import PanelExport.Console.Item
import PanelExport.Failure
import PanelExport.Log.Event

/-!
# How commands end

A command returns a number, or ends early; then an event tells why, users are told about failures,
and the number says of which kind the reason is.

* `Ending.report_returned`: a number that is returned is the number of the command.
-/

namespace PanelExport

/-- How a command comes to its end. -/
inductive Ending where
  | returned (code : Int)
  | failed (failure : Failure)
  | interrupted
  /-- For a reason that is not foreseen. -/
  | unexpected (kind message : String)

/-- What is told about an end. -/
structure Reporting where
  logErrors : Bool
  showTraceback : Bool

/-- All is told to the log, and no more than needed to users. -/
def Reporting.standard : Reporting := ⟨true, false⟩

/-- What came of a command's end. -/
structure Reported where
  code : Int
  printed : List Item
  events : List Event
  /-- The way to the fault was shown. -/
  traceback : Bool

namespace Ending

/-- The number of a command that ends in this way. -/
def code : Ending → Int
  | .returned code => code
  | .failed f => f.exitCode.number
  | .interrupted => ExitCode.interrupted.number
  | .unexpected _ _ => ExitCode.unknownError.number

/-- The fields of the event for an early end. -/
def fields (kind message : String) (code : ExitCode) : Fields :=
  [("error_type", .text kind), ("message", .text message), ("exit_code", .int code.number)]

/-- The event for an end. -/
def event? : Ending → Option Event
  | .returned _ => none
  | .failed f =>
    some ⟨.error, "command_error", fields f.kind.name f.message f.exitCode ++ f.details⟩
  | .interrupted => some ⟨.info, "command_interrupted", []⟩
  | .unexpected kind message =>
    some ⟨.error, "unexpected_error", fields kind message .unknownError⟩

/-- What users are told about an end. -/
def printed : Ending → List Item
  | .failed f => [.error f.formatted]
  | _ => []

/-- An end at a fault. -/
def isFault : Ending → Bool
  | .failed _ | .unexpected _ _ => true
  | _ => false

/-- The names of the fields that every event for an early end has. -/
def fieldNames : List String := (fields "" "" .success).map (·.1)

/-- An end can be told to the log: the details of a failure have no name that is taken. -/
def isReportable : Ending → Bool
  | .failed f => Event.admits f.details && f.details.all fun d => !fieldNames.contains d.1
  | _ => true

/-- What comes of an end. -/
def report (r : Reporting) (e : Ending) : Reported where
  code := e.code
  printed := e.printed
  events := if r.logErrors then e.event?.toList else []
  traceback := r.showTraceback && e.isFault

/-- What comes of an end, if it can be told where it is to be told. -/
def report? (r : Reporting) (e : Ending) : Option Reported :=
  if r.logErrors && !e.isReportable then none else some (report r e)

theorem report_returned (r : Reporting) (code : Int) :
    report r (.returned code) = ⟨code, [], [], false⟩ := by
  cases r
  simp [report, Ending.code, printed, event?, isFault]

end Ending

end PanelExport
