import PanelExport.Exposition.Convert
import PanelExport.Session.Dashboard
import PanelExport.Session.Params

/-!
# Sessions

A session exports one panel. Its calls, loads and exports, wait for the server now and then, and
others may run meanwhile; what a call does between two waits is one step. Only one export runs at a
time, and after the session is closed what still arrives is dropped.

* `Session.startExport_closed`: an export of a closed session ends at once.
* `Session.rank_resume_lt`: every reply brings a call nearer to its end.
-/

namespace PanelExport

/-- What one export does differently from others. -/
structure ExportOptions where
  directory? : Option String
  datasourceUid? : Option String
  /-- The lines are written to a file. -/
  save : Bool
  deriving DecidableEq

/-- A finished export. -/
structure Export where
  filename : String
  text : String
  lineCount : Nat
  batch : Batch
  path? : Option Path
  /-- The errors of the queries that had one. -/
  errors : List (String × String)
  deriving DecidableEq

/-- What a call waits for. -/
inductive Waiting where
  /-- A load waits for its dashboard. -/
  | load
  /-- An export without a panel waits for its dashboard. -/
  | panel (options : ExportOptions)
  /-- An export waits for the results of its batch. -/
  | results (options : ExportOptions) (batch : Batch)

/-- How many replies more than one a call may still need. -/
def Waiting.rank : Waiting → Nat
  | .panel _ => 1
  | _ => 0

/-- How a call ends. -/
inductive Outcome where
  | nothing
  | loaded (panel : Panel)
  | exported (result : Export)
  | failed (fault : RunFault)

/-- What follows a step of a call. -/
inductive Next where
  | waits (waiting : Waiting)
  | ends (outcome : Outcome)

/-- What a call asks the server for while it waits. -/
inductive ServerCall where
  | dashboard (uid : String)
  | results (batch : Batch)

/-- The exchange for one panel. -/
structure Session where
  params : ExportParams
  settings : Settings
  panel? : Option Panel
  queries : List PanelQuery
  lastExport? : Option Export
  /-- The session was closed. -/
  cancelled : Bool
  /-- An export is on its way. -/
  busy : Bool
  /-- The files in reach. -/
  files : FileTree

/-- One step of a call: the session after it, what it told, and what follows. -/
structure Step where
  session : Session
  events : List Event
  next : Next

namespace Session

/-- A new session. -/
def create (params : ExportParams) (settings : Settings) (files : FileTree) : Session where
  params
  settings
  panel? := none
  queries := []
  lastExport? := none
  cancelled := false
  busy := false
  files

/-- The session after it was closed. -/
def close (s : Session) : Session := { s with cancelled := true }

/-- What the events of a session have in common. -/
def context (s : Session) : Fields :=
  [("dashboard_uid", .text s.params.dashboardUid), ("panel_id", .int s.params.panelId)]

/-- An event of the session. -/
def event (s : Session) (level : Level) (name : String) (fields : Fields) : Event :=
  Event.within s.context ⟨level, name, fields⟩

/-- The event that a closed session drops what a stage came to. -/
def discardedEvent (s : Session) (stage : String) : Event :=
  s.event .info "stage_discarded" [("stage", .text stage)]

/-- What a waiting call asks for. -/
def request (s : Session) : Waiting → ServerCall
  | .load => .dashboard s.params.dashboardUid
  | .panel _ => .dashboard s.params.dashboardUid
  | .results _ batch => .results batch

/-! ## Loading -/

/-- The event that a panel was loaded. -/
def loadedEvent (s : Session) (p : Panel) : Event :=
  s.event .info "panel_loaded"
    [("title", Document.ofText? p.title?),
      ("datasource", Document.ofText? (p.datasource?.bind (·.uid?))),
      ("targets", .int p.targets.length)]

/-- What the reply for a dashboard does to a session: its panel, unless the session was closed. -/
def receivePanel (s : Session) (reply : Except CallFault Document) :
    Session × Logged RunFault (Option Panel) :=
  let fetched := fetchPanel s.params.dashboardUid s.params.panelId reply
  match fetched.outcome with
  | .error fault => (s, ⟨fetched.events, .error fault⟩)
  | .ok panel =>
    if s.cancelled then (s, ⟨fetched.events ++ [s.discardedEvent "load"], .ok none⟩)
    else
      let listed : Logged RunFault (List PanelQuery) := extractQueries panel
      ({ s with panel? := some panel, queries := panel.queries },
        ⟨fetched.events ++ listed.events ++ [s.loadedEvent panel], .ok (some panel)⟩)

/-- A load begins. -/
def startLoad (s : Session) : Step := ⟨s, [], .waits .load⟩

/-- A load gets its reply. -/
def resumeLoad (s : Session) (reply : Except CallFault Document) : Step :=
  let (s, received) := s.receivePanel reply
  ⟨s, received.events, .ends (match received.outcome with
    | .ok (some panel) => .loaded panel
    | .ok none => .nothing
    | .error fault => .failed fault)⟩

/-! ## Exporting -/

/-- An export ends, and another one may begin. -/
def endExport (s : Session) (events : List Event) (outcome : Outcome) : Step :=
  ⟨{ s with busy := false }, events, .ends outcome⟩

/-- The datasource for an export of a panel. -/
def datasourceFor (s : Session) (panel : Panel) (options : ExportOptions) : Option String :=
  (nonempty? options.datasourceUid?).or (resolveDatasource panel s.settings.datasourceUid?)

/-- The batch of the queries, for a datasource. -/
def buildBatch (s : Session) (uid : String) : Logged BatchFault Batch :=
  Batch.build (s.queries.map (·.expr)) uid s.params.timeRange (some s.settings.intervalMs)
    (some s.settings.maxDataPoints)

/-- An export sends its batch, if there is a datasource and a query. -/
def sendBatch (s : Session) (events : List Event) (panel : Panel) (options : ExportOptions) :
    Step :=
  match s.datasourceFor panel options with
  | none => s.endExport (events ++ [s.event .warning "datasource_unresolved" []]) .nothing
  | some uid =>
    let built := s.buildBatch uid
    let events := events ++ built.events
    match built.outcome with
    | .error fault => s.endExport events (.failed (.batch fault))
    | .ok batch =>
      if batch.queries.isEmpty then
        let skipped := Document.ofTexts batch.skipped
        s.endExport (events ++ [s.event .warning "no_queries_to_run" [("skipped", skipped)]])
          .nothing
      else ⟨s, events, .waits (.results options batch)⟩

/-- An export begins, unless the session is closed or another export is on its way. -/
def startExport (s : Session) (options : ExportOptions) : Step :=
  if s.cancelled then ⟨s, [], .ends .nothing⟩
  else if s.busy then ⟨s, [s.event .warning "export_in_progress" []], .ends .nothing⟩
  else
    let s := { s with busy := true }
    match s.panel? with
    | none => ⟨s, [], .waits (.panel options)⟩
    | some panel => s.sendBatch [] panel options

/-- An export gets the dashboard for which it waits. -/
def resumePanel (s : Session) (options : ExportOptions) (reply : Except CallFault Document) :
    Step :=
  let (s, received) := s.receivePanel reply
  match received.outcome with
  | .error fault => s.endExport received.events (.failed fault)
  | .ok none => s.endExport received.events .nothing
  | .ok (some panel) => s.sendBatch received.events panel options

/-- The failure of an export whose batch was refused. -/
def refusal (s : Session) (f : RemoteFault) : Failure :=
  .queryExecution ("Query execution failed: " ++ f.message)
    [("dashboard_uid", .text s.params.dashboardUid), ("status", f.status?.elim .null (.int ·))]

/-- The name of the file for the panel of the session. -/
def filename (s : Session) : String :=
  (s.panel?.map Panel.exportName).getD defaultName

/-- The files with a text saved for an export, and where it was saved; or the files as they are. -/
def saveText (s : Session) (options : ExportOptions) (text : String) :
    Except FileFault (Option Path × FileTree) :=
  if options.save then
    let directory := (nonempty? options.directory?).getD s.settings.outputDirectory
    (s.files.save directory s.filename text).map fun (path, files) => (some path, files)
  else .ok (none, s.files)

/-- The event that an export is complete. -/
def completeEvent (s : Session) (e : Export) : Event :=
  s.event .info "export_complete"
    [("lines", .int e.lineCount), ("ref_ids", Document.ofTexts e.batch.refIds),
      ("filename", .text e.filename)]

/-- An export converts and saves the results of its batch. -/
def finishExport (s : Session) (options : ExportOptions) (batch : Batch) (result : QueryResult) :
    Step :=
  match s.saveText options result.text with
  | .error fault => s.endExport result.events (.failed (.file fault))
  | .ok (path?, files) =>
    let e : Export :=
      { filename := s.filename
        text := result.text
        lineCount := result.lines.length
        batch
        path?
        errors := result.errors }
    let saved := path?.toList.map fun path => FileTree.savedEvent path result.text
    { s with files, lastExport? := some e }.endExport
      (result.events ++ saved ++ [s.completeEvent e]) (.exported e)

/-- An export gets the results of its batch. -/
def resumeResults (s : Session) (options : ExportOptions) (batch : Batch)
    (reply : Except CallFault Document) : Step :=
  match reply with
  | .error fault => s.endExport [] (.failed (.ofCall s.refusal fault))
  | .ok d =>
    if s.cancelled then s.endExport [s.discardedEvent "export"] .nothing
    else match QueryResult.ofDocument d with
      | .error fault => s.endExport [] (.failed (.shape fault))
      | .ok result => s.finishExport options batch result

/-- A waiting call gets its reply. -/
def resume (s : Session) (reply : Except CallFault Document) : Waiting → Step
  | .load => s.resumeLoad reply
  | .panel options => s.resumePanel options reply
  | .results options batch => s.resumeResults options batch reply

/-! ## Laws of the steps -/

theorem startExport_closed {s : Session} (h : s.cancelled = true) (options : ExportOptions) :
    s.startExport options = ⟨s, [], .ends .nothing⟩ := by
  simp [startExport, h]

/-- A call that waits after it sent a batch waits for the results. -/
theorem rank_sendBatch {s : Session} {events : List Event} {panel : Panel}
    {options : ExportOptions} {w : Waiting}
    (h : (s.sendBatch events panel options).next = .waits w) : w.rank = 0 := by
  unfold sendBatch at h
  split at h
  · simp [endExport] at h
  · dsimp only at h
    split at h
    · simp [endExport] at h
    · split at h
      · simp [endExport] at h
      · cases h
        rfl

/-- No step follows the results. -/
theorem resumeResults_ends (s : Session) (options : ExportOptions) (batch : Batch)
    (reply : Except CallFault Document) (w : Waiting) :
    (s.resumeResults options batch reply).next ≠ .waits w := by
  unfold resumeResults
  split
  · simp [endExport]
  · split
    · simp [endExport]
    · split
      · simp [endExport]
      · unfold finishExport
        split <;> simp [endExport]

/-- Every reply brings a call nearer to its end. -/
theorem rank_resume_lt {s : Session} {reply : Except CallFault Document} {w w' : Waiting}
    (h : (s.resume reply w).next = .waits w') : w'.rank < w.rank := by
  cases w with
  | load => simp [resume, resumeLoad] at h
  | results options batch => exact absurd h (resumeResults_ends s options batch reply w')
  | panel options =>
    unfold resume resumePanel at h
    dsimp only at h
    split at h
    · simp [endExport] at h
    · simp [endExport] at h
    · rw [rank_sendBatch h]
      exact Nat.one_pos

end Session

end PanelExport
