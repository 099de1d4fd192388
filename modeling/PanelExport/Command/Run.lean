import PanelExport.Command.Export
import PanelExport.Query.Report

/-!
# Running a command line

From the words of a command line to everything that comes of it.
-/

namespace PanelExport.Command

/-- What comes of a command. -/
structure Finish where
  code : Int
  printed : List Item
  sent : List Request
  files : FileTree
  events : List Event
  /-- What is written as it is. -/
  output : String
  /-- The resources are served there from now on. -/
  endpoint? : Option Endpoint

/-- Only a code comes of it. -/
def Finish.ofCode (code : Int) (files : FileTree) : Finish where
  code
  printed := []
  sent := []
  files
  events := []
  output := ""
  endpoint? := none

/-- Why nothing comes of a command line. -/
inductive CommandFault where
  | settings (fault : SettingsFault)
  | number (fault : NumberFault)

/-- How the course of a command comes to its end. -/
def endingOf (x : Course Completion) : Ending :=
  match x.outcome with
  | .ok done => .returned done.code.number
  | .error ending => ending

/-- The files after the course of a command; an early end leaves them as they were. -/
def filesAfter (x : Course Completion) (files : FileTree) : FileTree :=
  match x.outcome with
  | .ok done => done.files
  | .error _ => files

/-- What comes of the course of a command. -/
def finishCourse (x : Course Completion) (files : FileTree) : Finish :=
  let reported := (endingOf x).report .standard
  { code := reported.code
    printed := x.printed ++ reported.printed
    sent := x.sent
    files := filesAfter x files
    events := x.events ++ reported.events
    output := ""
    endpoint? := none }

/-- The code for a report on expressions. -/
def reportCode (r : Query.Report) : ExitCode :=
  if r.found.errors.any (· ≠ "") then .warning else .success

/-- The metrics of some expressions are listed. -/
def listMetrics (exprs : List String) (files : FileTree) : Except NumberFault Finish := do
  let logged := Query.Report.ofTexts (some exprs)
  let report ← logged.outcome
  return { Finish.ofCode (reportCode report).number files with
    events := logged.events
    output := report.body }

/-- The resources are served. -/
def serve (endpoint : Endpoint) (files : FileTree) : Finish :=
  let address := endpoint.host ++ ":" ++ toString endpoint.portNumber
  { Finish.ofCode ExitCode.success.number files with
    printed := [.info ("Serving " ++ Release.program ++ " resources on http://" ++ address)]
    endpoint? := some endpoint }

/-- What comes of an invocation. -/
def perform (invocation : Invocation) (w : Surroundings) : Except CommandFault Finish :=
  match invocation with
  | .export words => .ok (finishCourse (exportCourse words w) w.files)
  | .queries dashboard? panel? => .ok (finishCourse (queriesCourse dashboard? panel? w) w.files)
  | .metrics exprs => (listMetrics exprs w.files).mapError .number
  | .serve endpoint => .ok (serve endpoint w.files)

/-! ## Command lines -/

/-- What comes of a command line, with the name of the level that the log was set to. The log is not
set if the reading of the words ends early. -/
structure Run where
  logLevel? : Option String
  finish : Finish

/-- What comes of words whose reading ends early. -/
def finishOfStop (stop : Stop) (files : FileTree) : Finish :=
  match stop with
  | .help => .ofCode ExitCode.success.number files
  | .version =>
    { Finish.ofCode ExitCode.success.number files with
      output := Release.program ++ " " ++ Release.version ++ "\n" }
  | .wrong => .ofCode 2 files

/-- The name of the level for the log: the one in the words, or the one in the settings. -/
def logLevelOf (line : CommandLine) (w : Surroundings) : Except SettingsFault String :=
  match nonempty? line.logLevel? with
  | some level => .ok level
  | none => (Settings.ofEnvironment w.environment).map (·.logLevel)

/-- What comes of a command line. Without a command it is as if help was asked for, but in vain. -/
def runLine (line : CommandLine) (w : Surroundings) : Except CommandFault Run := do
  let level ← (logLevelOf line w).mapError .settings
  let finish ← match line.invocation? with
    | some invocation => perform invocation w
    | none => .ok (.ofCode 1 w.files)
  return ⟨some level, finish⟩

/-- What comes of the words of a command line. -/
def run (words : List String) (w : Surroundings) : Except CommandFault Run :=
  match CommandLine.ofWords words with
  | .ok line => runLine line w
  | .error stop => .ok ⟨none, finishOfStop stop w.files⟩

end PanelExport.Command
