import PanelExport.Document.Display
import PanelExport.Log.Event

/-!
# Failures and exit codes

Every failure ends a run. It has a kind, which is part of a small hierarchy, a message, named
details, and the exit code of the command that meets it.
-/

namespace PanelExport

/-- How a command ends. -/
inductive ExitCode where
  | success
  | warning
  | configError
  | serverError
  | unknownError
  | interrupted
  deriving DecidableEq

/-- The number of an exit code. -/
def ExitCode.number : ExitCode → Nat
  | .success => 0
  | .warning => 1
  | .configError => 10
  | .serverError => 11
  | .unknownError => 127
  | .interrupted => 130

/-- The kinds of failures. -/
inductive FailureKind where
  | general
  | configuration
  | parameter
  | missingParameter
  | invalidParameter
  | dashboardFetch
  | dashboardNotFound
  | dashboardInvalid
  | panelNotFound
  | queryExecution
  deriving DecidableEq

namespace FailureKind

/-- The name of a kind. -/
def name : FailureKind → String
  | .general => "PanelDumpError"
  | .configuration => "ConfigurationError"
  | .parameter => "ParameterError"
  | .missingParameter => "MissingParameterError"
  | .invalidParameter => "InvalidParameterError"
  | .dashboardFetch => "DashboardFetchError"
  | .dashboardNotFound => "DashboardNotFoundError"
  | .dashboardInvalid => "DashboardInvalidError"
  | .panelNotFound => "PanelNotFoundError"
  | .queryExecution => "QueryExecutionError"

/-- The kinds that a kind belongs to, the nearest first. -/
def ancestors : FailureKind → List FailureKind
  | .general => []
  | .missingParameter | .invalidParameter => [.parameter, .general]
  | .dashboardNotFound | .dashboardInvalid => [.dashboardFetch, .general]
  | _ => [.general]

/-- The exit code of a kind. -/
def exitCode : FailureKind → ExitCode
  | .general => .unknownError
  | .configuration | .parameter | .missingParameter | .invalidParameter => .configError
  | _ => .serverError

end FailureKind

/-- Why a run ended without a result. -/
inductive Failure where
  | general (message : String) (details : Fields)
  | configuration (message : String) (details : Fields)
  | parameter (message : String) (details : Fields)
  | missingParameter (name : String)
  | invalidParameter (name reason : String)
  | dashboardFetch (message : String) (details : Fields)
  /-- The request for the dashboard failed, for a reason if it is not empty. -/
  | dashboardNotFound (uid reason : String)
  | dashboardInvalid (uid : String)
  | panelNotFound (uid : String) (id : Int)
  | queryExecution (message : String) (details : Fields)

namespace Failure

/-- The kind of a failure. -/
def kind : Failure → FailureKind
  | .general _ _ => .general
  | .configuration _ _ => .configuration
  | .parameter _ _ => .parameter
  | .missingParameter _ => .missingParameter
  | .invalidParameter _ _ => .invalidParameter
  | .dashboardFetch _ _ => .dashboardFetch
  | .dashboardNotFound _ _ => .dashboardNotFound
  | .dashboardInvalid _ => .dashboardInvalid
  | .panelNotFound _ _ => .panelNotFound
  | .queryExecution _ _ => .queryExecution

/-- The wording of a failure. -/
def message : Failure → String
  | .general m _ | .configuration m _ | .parameter m _ | .dashboardFetch m _
  | .queryExecution m _ => m
  | .missingParameter name => "Missing required parameter: " ++ name
  | .invalidParameter name reason => "Invalid parameter " ++ name ++ ": " ++ reason
  | .dashboardNotFound uid reason =>
    "Dashboard " ++ uid ++ " not found" ++ (if reason = "" then "" else ": " ++ reason)
  | .dashboardInvalid _ => "Dashboard not found or invalid response shape"
  | .panelNotFound uid id => "Panel " ++ toString id ++ " not found in dashboard " ++ uid

/-- The named details of a failure. -/
def details : Failure → Fields
  | .general _ d | .configuration _ d | .parameter _ d | .dashboardFetch _ d
  | .queryExecution _ d => d
  | .missingParameter name | .invalidParameter name _ => [("parameter", .text name)]
  | .dashboardNotFound uid _ | .dashboardInvalid uid => [("dashboard_uid", .text uid)]
  | .panelNotFound uid id => [("dashboard_uid", .text uid), ("panel_id", .int id)]

/-- The exit code of a failure. -/
def exitCode (f : Failure) : ExitCode := f.kind.exitCode

/-- The message with the details behind it, as users see it. -/
def formatted (f : Failure) : String :=
  if f.details.isEmpty then f.message
  else f.message ++ " (" ++
    ", ".intercalate (f.details.map fun (name, d) => name ++ "=" ++ d.shown) ++ ")"

end Failure

end PanelExport
