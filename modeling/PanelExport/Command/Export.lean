import PanelExport.Command.Course
import PanelExport.Command.Invocation
import PanelExport.Console.Summary
import PanelExport.Document.Writer

/-!
# Commands on panels

Two commands open a session for a panel: one saves the results of its queries, the other only shows
them. What can be said about the words and the settings is said before anything is asked for.
-/

namespace PanelExport.Command

/-- What a command finds around it. -/
structure Surroundings where
  environment : List (String × String)
  transport : Transport
  files : FileTree

/-- The server that the settings name. -/
def serverOf (s : Settings) : Except Failure Server :=
  if isBlankText s.serverUrl then
    .error (.configuration "Grafana URL is not configured"
      [("setting", .text "PANELDUMP_GRAFANA_URL")])
  else .ok (Server.ofSettings s)

/-- The end that a fault of the settings brings. -/
def endingOfSettings (f : SettingsFault) : Ending := .unexpected f.kind f.message

/-- A new session for some parameters, and the server that answers it. -/
def openSession (parameters : Fields) (w : Surroundings) : Except Ending (Session × Server) := do
  let params ← (ExportParams.ofFields parameters).mapError .ofFault
  let settings ← (Settings.ofEnvironment w.environment).mapError endingOfSettings
  let server ← (serverOf settings).mapError .failed
  return (Session.create params settings w.files, server)

/-- The panel of a session is loaded and shown. -/
def showPanel (session : Session) (server : Server) (w : Surroundings) : Course Session := do
  Course.print [.spinner "Loading panel..."]
  let (session, _) ← Course.follow server
    (Session.complete (server.respond w.transport) session.startLoad)
  Course.print ((session.panel?.map (·.summary session.queries)).getD [])
  return session

/-- What users are told about a finished export. -/
def exportItems (e : Export) : List Item :=
  (e.errors.map fun (refId, message) => .warning ("Query " ++ refId ++ " failed: " ++ message)) ++
    [.success ("Wrote " ++ toString e.lineCount ++ " lines to " ++
      e.path?.elim "" (·.text))]

/-- What a command on a panel comes to: its exit code, and the files after it. -/
structure Completion where
  code : ExitCode
  files : FileTree

/-- What an export comes to. -/
def completeExport (session : Session) : Outcome → Course Completion
  | .exported e => do
    Course.print (exportItems e)
    return ⟨.success, session.files⟩
  | _ => do
    Course.print [.warning
      "Nothing exported: no datasource could be resolved or the panel has no queries"]
    return ⟨.warning, session.files⟩

/-- The parameters that the words of an export command give. -/
def ExportWords.parameters (words : ExportWords) : Fields :=
  [("dashboard", Document.ofText? words.dashboard?), ("panel", Document.ofText? words.panel?),
    ("timerange", Document.ofText? words.timeRange?)]

/-- The results of a panel's queries are saved. -/
def exportCourse (words : ExportWords) (w : Surroundings) : Course Completion := do
  let (session, server) ← Course.ofExcept id (openSession words.parameters w)
  Course.print (Item.header
    ("Panel export: " ++ session.params.dashboardUid ++ " / " ++ toString session.params.panelId))
  let session ← showPanel session server w
  Course.print [.spinner "Running queries..."]
  let (session, outcome) ← Course.follow server
    (Session.complete (server.respond w.transport)
      (session.startExport ⟨words.directory?, words.datasource?, true⟩))
  completeExport session outcome

/-- The parameters for showing queries. They are the same for any time range. -/
def queriesParameters (dashboard? panel? : Option String) : Fields :=
  [("dashboard", Document.ofText? dashboard?), ("panel", Document.ofText? panel?),
    ("timerange", .text (Document.write .spaced (.object (TimeRange.toFields ⟨"now-1h", "now"⟩))))]

/-- The queries of a panel are shown. -/
def queriesCourse (dashboard? panel? : Option String) (w : Surroundings) : Course Completion := do
  let (session, server) ← Course.ofExcept id (openSession (queriesParameters dashboard? panel?) w)
  let session ← showPanel session server w
  return ⟨.success, session.files⟩

end PanelExport.Command
