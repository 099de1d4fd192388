import PanelExport.Command.Course
import PanelExport.Proofs.Session.Steps

/-!
# Calls of an open session

A session that nobody closes drops nothing: a load fails or stores its panel, and an export fails,
has nothing to send, or waits for its results and then fails or saves its file. No other step tells
of a saved file, and no fault that a reply brings is one of the configuration.

* `Logged.savesNothing_bind`: what a course of computations tells of.
* `FileTree.save_wrote`: saving writes one file and leaves all others as they are.
* `Session.fetched_isLate`, `Session.refused_isLate`: the faults that replies bring.
* `Session.resumeLoad_of_error`, `Session.resumeLoad_of_ok`, `Session.startExport_batchSent`,
  `Session.resumeResults_resultsEnd`: the steps.
-/

namespace PanelExport

/-! ## Events -/

/-- None of the events tells of a saved file. -/
def SavesNothing (events : List Event) : Prop := ∀ event ∈ events, event.name ≠ "export_saved"

theorem savesNothing_nil : SavesNothing [] := nofun

/-- Only one event tells of a saved file. -/
theorem savesNothing_event {level : Level} {name : String} {fields : Fields}
    (h : name ≠ "export_saved") : SavesNothing [⟨level, name, fields⟩] := by
  intro event hevent
  rwa [List.mem_singleton.1 hevent]

theorem SavesNothing.append {events more : List Event} (h : SavesNothing events)
    (h' : SavesNothing more) : SavesNothing (events ++ more) :=
  fun event hevent => (List.mem_append.1 hevent).elim (h event) (h' event)

theorem savesNothing_flatMap {α : Type} {as : List α} {f : α → List Event}
    (h : ∀ a ∈ as, SavesNothing (f a)) : SavesNothing (as.flatMap f) := by
  intro event hevent
  obtain ⟨a, ha, hevent⟩ := List.mem_flatMap.1 hevent
  exact h a ha event hevent

namespace Logged

variable {ε α β : Type}

/-- A computation tells of no saved file if neither of its parts does. -/
theorem savesNothing_bind {x : Logged ε α} {f : α → Logged ε β} (hx : SavesNothing x.events)
    (hf : ∀ a, SavesNothing (f a).events) : SavesNothing (x >>= f).events := by
  intro event hevent
  rcases mem_events_bind hevent with h | ⟨a, -, h⟩
  · exact hx event h
  · exact hf a event h

theorem savesNothing_log {level : Level} {name : String} {fields : Fields}
    (h : name ≠ "export_saved") :
    SavesNothing (log ⟨level, name, fields⟩ : Logged ε Unit).events :=
  savesNothing_event h

theorem savesNothing_logIf {condition : Bool} {level : Level} {name : String} {fields : Fields}
    (h : name ≠ "export_saved") :
    SavesNothing (logIf condition ⟨level, name, fields⟩ : Logged ε Unit).events := by
  cases condition with
  | true => exact savesNothing_event h
  | false => exact savesNothing_nil

end Logged

namespace Request

variable (r : Request)

theorem unreadable_savesNothing (reason : String) :
    SavesNothing (r.unreadable reason).events :=
  Logged.savesNothing_bind (Logged.savesNothing_log (by decide)) fun _ => savesNothing_nil

theorem accepted_savesNothing (body : List UInt8) : SavesNothing (r.accepted body).events := by
  unfold accepted
  split
  · exact savesNothing_nil
  · split
    · exact savesNothing_nil
    · exact savesNothing_nil
    · exact r.unreadable_savesNothing _

theorem refused_savesNothing (status : Nat) (body : List UInt8) :
    SavesNothing (r.refused status body).events := by
  have hfails : ∀ said, SavesNothing ((do
      Logged.log ⟨.warning, "grafana_http_error", ("status", .int status) :: r.fields⟩
      Logged.throw (.failed ⟨describe status said, some status, said⟩)) :
        Logged CallFault Document).events := fun said =>
    Logged.savesNothing_bind (Logged.savesNothing_log (by decide)) fun _ => savesNothing_nil
  unfold refused
  split
  · exact Logged.savesNothing_bind savesNothing_nil hfails
  · exact Logged.savesNothing_bind savesNothing_nil hfails
  · exact Logged.savesNothing_bind savesNothing_nil hfails

/-- No reply makes a request tell of a saved file. -/
theorem result_savesNothing (reply : Reply) : SavesNothing (r.result reply).events := by
  unfold result
  split
  · split
    · exact r.accepted_savesNothing _
    · exact r.refused_savesNothing _ _
  · exact Logged.savesNothing_bind (Logged.savesNothing_log (by decide)) fun _ => savesNothing_nil

/-- However a request ends, no event of it tells of a saved file. -/
theorem outcome_savesNothing (reply : Reply) : SavesNothing (r.outcome reply).events := by
  unfold outcome resultFrom
  split
  · exact savesNothing_nil
  · split
    · exact r.unreadable_savesNothing _
    · split
      · split
        · exact r.result_savesNothing _
        · exact r.unreadable_savesNothing _
      · exact r.result_savesNothing _

end Request

theorem extractQueries_savesNothing (panel : Panel) :
    SavesNothing (extractQueries panel : Logged RunFault (List PanelQuery)).events :=
  Logged.savesNothing_bind (Logged.savesNothing_logIf (by decide)) fun _ => savesNothing_nil

/-- Nothing that is told about the queries of a batch tells of a saved file. -/
theorem Batch.build_savesNothing (exprs : List String) (uid : String) (range : TimeRange)
    (intervalMs? maxDataPoints? : Option Int) :
    SavesNothing (build exprs uid range intervalMs? maxDataPoints?).events := by
  unfold build
  split
  · exact savesNothing_nil
  · exact Logged.savesNothing_bind (Logged.savesNothing_logIf (by decide)) fun _ => savesNothing_nil

theorem QueryResult.events_savesNothing (r : QueryResult) : SavesNothing r.events := by
  refine savesNothing_flatMap fun g _ => .append ?_ (savesNothing_flatMap fun f _ => ?_)
  · intro event hevent
    obtain ⟨e, -, rfl⟩ := List.mem_map.1 hevent
    show "query_error" ≠ "export_saved"
    decide
  · unfold Frame.events
    split
    · exact savesNothing_nil
    · exact savesNothing_event (by decide)

/-! ## Faults -/

/-- A fault that shows only after something was asked for: its code is that of the server, or of an
end that is not foreseen. -/
def RunFault.IsLate (fault : RunFault) : Prop :=
  (Ending.ofFault fault).code = 11 ∨ (Ending.ofFault fault).code = 127

theorem dashboardIn_isLate {uid : String} {reply : Except CallFault Document} {fault : RunFault}
    (h : dashboardIn uid reply = .error fault) : fault.IsLate := by
  unfold dashboardIn at h
  split at h
  case h_1 f =>
    cases h
    cases f with
    | failed _ => exact .inl rfl
    | address _ => exact .inr rfl
    | tooDeep => exact .inr rfl
  case h_2 =>
    split at h
    · cases h
    · cases h
      exact .inl rfl

/-- What does not fit the shape that was expected is not foreseen. -/
theorem mapError_shape_isLate {α : Type} {x : Except ShapeFault α} {fault : RunFault}
    (h : x.mapError RunFault.shape = .error fault) : fault.IsLate := by
  obtain ⟨_, -, rfl⟩ := mapError_eq_error.1 h
  exact .inr rfl

theorem fetchPanel_isLate {uid : String} {id : Int} {reply : Except CallFault Document}
    {fault : RunFault} (h : (fetchPanel uid id reply).outcome = .error fault) : fault.IsLate := by
  rw [fetchPanel, Logged.outcome_bind] at h
  rcases bind_eq_error.1 h with h | ⟨dashboard, -, h⟩
  · exact dashboardIn_isLate h
  rw [Logged.outcome_bind] at h
  rcases bind_eq_error.1 h with h | ⟨event, -, h⟩
  · exact mapError_shape_isLate h
  rw [Logged.outcome_bind] at h
  rcases bind_eq_error.1 h with h | ⟨_, -, h⟩
  · cases h
  rw [Logged.outcome_bind] at h
  rcases bind_eq_error.1 h with h | ⟨node?, -, h⟩
  · exact mapError_shape_isLate h
  · cases node? with
    | none =>
      cases h
      exact .inl rfl
    | some node => exact mapError_shape_isLate h

/-! ## Files -/

namespace FileTree

/-- One file was written, and all others are as they were. -/
structure Wrote (t : FileTree) (place : List String) (text : String) (t' : FileTree) : Prop where
  file : t'.files.lookup place = some text
  others : ∀ other, other ≠ place → t'.files.lookup other = t.files.lookup other

theorem lookup_filter_ne {files : List (List String × String)} {place other : List String}
    (h : other ≠ place) : (files.filter (·.1 != place)).lookup other = files.lookup other := by
  induction files with
  | nil => rfl
  | cons f files ih =>
    obtain ⟨here, text⟩ := f
    by_cases hplace : here = place
    · have hother : (other == here) = false := by
        rw [hplace]
        exact beq_false_of_ne h
      rw [List.filter_cons_of_neg (by simpa using hplace), ih, List.lookup_cons, hother]
    · rw [List.filter_cons_of_pos (by simpa using hplace), List.lookup_cons, List.lookup_cons, ih]

theorem write_wrote (t : FileTree) (place : List String) (text : String) :
    t.Wrote place text (t.write place text) where
  file := by simp [write]
  others other h := by
    have hother : (other == place) = false := beq_false_of_ne h
    rw [write, List.lookup_cons, hother]
    exact lookup_filter_ne h

theorem makeDirectory_files {t t' : FileTree} {p : Path} (h : t.makeDirectory p = .ok t') :
    t'.files = t.files := by
  unfold makeDirectory at h
  split at h
  · cases h
  · split at h
    · cases h
    · split at h
      · cases h
      · cases h
        rfl

/-- Saving writes one file. Directories may be made for it. -/
theorem save_wrote {t t' : FileTree} {directory name text : String} {path : Path}
    (h : t.save directory name text = .ok (path, t')) : t.Wrote path.place text t' := by
  obtain ⟨made, hmade, h⟩ := bind_eq_ok.1 h
  have hfiles := makeDirectory_files hmade
  dsimp only at h
  split at h
  · cases h
  · split at h
    · cases h
    · cases h
      refine ⟨(made.write_wrote _ text).file, fun other hother => ?_⟩
      rw [(made.write_wrote _ text).others other hother, hfiles]

end FileTree

/-- An export saved a reply: one file was written, with the lines of its result. -/
structure Export.Saves (e : Export) (d : Document) (result : QueryResult) (path : Path)
    (files files' : FileTree) : Prop where
  decoded : QueryResult.ofDocument d = .ok result
  wrote : files.Wrote path.place result.text files'
  path : e.path? = some path
  lineCount : e.lineCount = result.lines.length

/-! ## Steps -/

namespace Session

variable {s : Session} {options : ExportOptions}

theorem fetched_isLate {reply : Except CallFault Document} {fault : RunFault}
    (h : s.fetched reply = .error fault) : fault.IsLate :=
  fetchPanel_isLate h

theorem refused_isLate (s : Session) (fault : CallFault) :
    (RunFault.ofCall s.refusal fault).IsLate := by
  cases fault with
  | failed _ => exact .inl rfl
  | address _ => exact .inr rfl
  | tooDeep => exact .inr rfl

theorem savesNothing_own (s : Session) {level : Level} {name : String} {fields : Fields}
    (h : name ≠ "export_saved") : SavesNothing [s.event level name fields] :=
  savesNothing_event h

theorem fetched_savesNothing (s : Session) (reply : Except CallFault Document) :
    SavesNothing (fetchPanel s.params.dashboardUid s.params.panelId reply).events :=
  fun _ hevent => fetchPanel_events hevent

/-- Nothing is fetched from a call that failed. -/
theorem fetched_of_error (s : Session) (fault : CallFault) :
    s.fetched (.error fault) =
      .error (.ofCall (fun f => .dashboardNotFound s.params.dashboardUid f.message) fault) := rfl

theorem exists_of_fetched {reply : Except CallFault Document} {panel : Panel}
    (h : s.fetched reply = .ok panel) : ∃ d, reply = .ok d := by
  cases reply with
  | error fault =>
    rw [fetched_of_error] at h
    cases h
  | ok d => exact ⟨d, rfl⟩

/-- A load whose reply has no panel fails. -/
theorem resumeLoad_of_error {reply : Except CallFault Document} {fault : RunFault}
    (h : s.fetched reply = .error fault) :
    ∃ events, SavesNothing events ∧ s.resumeLoad reply = ⟨s, events, .ends (.failed fault)⟩ := by
  refine ⟨_, s.fetched_savesNothing reply, ?_⟩
  unfold fetched at h
  simp only [resumeLoad, receivePanel, h]

/-- A load of an open session stores the panel of the reply. -/
theorem resumeLoad_of_ok {reply : Except CallFault Document} {panel : Panel}
    (opened : s.cancelled = false) (h : s.fetched reply = .ok panel) :
    ∃ events, SavesNothing events ∧
      s.resumeLoad reply = ⟨s.store panel, events, .ends (.loaded panel)⟩ := by
  have hloaded : SavesNothing [s.loadedEvent panel] := s.savesNothing_own (by decide)
  refine ⟨_, ((s.fetched_savesNothing reply).append (extractQueries_savesNothing panel)).append
    hloaded, ?_⟩
  unfold fetched at h
  simp only [resumeLoad, receivePanel, h]
  rw [if_neg (Bool.eq_false_iff.1 opened)]
  rfl

/-- How an export comes out that sends its batch: only if it waits, something was sent. -/
inductive BatchSent (s : Session) (options : ExportOptions) : Step → Prop where
  | nothing {events : List Event} (quiet : SavesNothing events) :
      s.BatchSent options (s.endExport events .nothing)
  | failed {events : List Event} {fault : BatchFault} (quiet : SavesNothing events) :
      s.BatchSent options (s.endExport events (.failed (.batch fault)))
  | waits {events : List Event} {batch : Batch} (quiet : SavesNothing events) :
      s.BatchSent options ⟨s, events, .waits (.results options batch)⟩

theorem sendBatch_batchSent {events : List Event} (quiet : SavesNothing events) (panel : Panel) :
    s.BatchSent options (s.sendBatch events panel options) := by
  unfold sendBatch
  split
  case h_1 => exact .nothing (quiet.append (s.savesNothing_own (by decide)))
  case h_2 uid _ =>
    have hbuilt : SavesNothing (events ++ (s.buildBatch uid).events) :=
      quiet.append (Batch.build_savesNothing _ _ _ _ _)
    dsimp only
    split
    case h_1 => exact .failed hbuilt
    case h_2 =>
      split
      · exact .nothing (hbuilt.append (s.savesNothing_own (by decide)))
      · exact .waits hbuilt

/-- A session that is open and idle, with a panel, goes on to send a batch. -/
theorem startExport_batchSent {panel : Panel} (options : ExportOptions)
    (opened : s.cancelled = false) (idle : s.busy = false) (held : s.panel? = some panel) :
    BatchSent { s with busy := true } options (s.startExport options) := by
  unfold startExport
  rw [if_neg (Bool.eq_false_iff.1 opened), if_neg (Bool.eq_false_iff.1 idle)]
  dsimp only
  rw [held]
  exact sendBatch_batchSent savesNothing_nil panel

/-- How an export ends in an open session that waited for its results. -/
inductive ResultsEnd (s : Session) (reply : Except CallFault Document) : Step → Prop where
  | failed {events : List Event} {fault : RunFault} (late : fault.IsLate)
      (quiet : SavesNothing events) :
      s.ResultsEnd reply (s.endExport events (.failed fault))
  | saved {d : Document} {result : QueryResult} {path : Path} {files : FileTree} {e : Export}
      {before after : List Event} (replied : reply = .ok d)
      (saves : e.Saves d result path s.files files)
      (quietBefore : SavesNothing before) (quietAfter : SavesNothing after) :
      s.ResultsEnd reply
        (endExport { s with files, lastExport? := some e }
          (before ++ FileTree.savedEvent path result.text :: after) (.exported e))

theorem finishExport_resultsEnd (save : options.save = true) {batch : Batch} {d : Document}
    {result : QueryResult} (decoded : QueryResult.ofDocument d = .ok result) :
    s.ResultsEnd (.ok d) (s.finishExport options batch result) := by
  unfold finishExport
  split
  case h_1 => exact .failed (.inr rfl) result.events_savesNothing
  case h_2 path? files hsaved =>
    rw [saveText, if_pos save] at hsaved
    obtain ⟨⟨path, files'⟩, hfile, hpair⟩ := exceptMap_eq_ok.1 hsaved
    cases hpair
    dsimp only [Option.toList_some, List.map_cons, List.map_nil]
    rw [List.append_assoc]
    exact .saved rfl ⟨decoded, FileTree.save_wrote hfile, rfl, rfl⟩ result.events_savesNothing
      (s.savesNothing_own (by decide))

theorem resumeResults_resultsEnd (opened : s.cancelled = false) (save : options.save = true)
    (batch : Batch) (reply : Except CallFault Document) :
    s.ResultsEnd reply (s.resumeResults options batch reply) := by
  unfold resumeResults
  split
  case h_1 fault => exact .failed (s.refused_isLate fault) savesNothing_nil
  case h_2 d =>
    rw [if_neg (Bool.eq_false_iff.1 opened)]
    split
    case h_1 => exact .failed (.inr rfl) savesNothing_nil
    case h_2 result decoded => exact finishExport_resultsEnd save decoded

end Session

end PanelExport
