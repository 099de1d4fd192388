import PanelExport.Proofs.Remote.Outcomes
import PanelExport.Proofs.Session.Opened
import PanelExport.Proofs.Session.Parameters

/-!
# The course of an export

An export opens a session, loads the panel and has the results of its batch saved. For each of these
parts it is shown what is sent, which saved files are told of, how the part ends and what is printed
last; what comes of the whole is put together from the parts.

* `Course.ComesTo`: what matters of a course, and the rules for courses one after another.
* `Command.showPanel_of_error`, `Command.showPanel_of_ok`, `Command.exportFrom_startExport`: the
  parts.
* `Command.openSession_code`: the numbers of an export that opens no session.
* `Command.exportCourse_of_error`, `Command.exportCourse_of_unloaded`,
  `Command.exportCourse_of_loaded`: the whole.
-/

namespace PanelExport

/-! ## Saved files -/

/-- The events that tell of saved files. -/
def savedEvents (events : List Event) : List Event := events.filter (·.name == "export_saved")

theorem savedEvents_append (events more : List Event) :
    savedEvents (events ++ more) = savedEvents events ++ savedEvents more :=
  List.filter_append ..

/-- No event tells of a saved file just if there is none to tell. -/
theorem savedEvents_eq_nil_iff {events : List Event} :
    savedEvents events = [] ↔ SavesNothing events := by
  simp [savedEvents, SavesNothing]

/-- One saved file among events that tell of none. -/
theorem savedEvents_saved {before after : List Event} (hbefore : SavesNothing before)
    (hafter : SavesNothing after) (path : Path) (text : String) :
    savedEvents (before ++ FileTree.savedEvent path text :: after) =
      [FileTree.savedEvent path text] := by
  have hone : savedEvents [FileTree.savedEvent path text] = [FileTree.savedEvent path text] := rfl
  rw [← List.singleton_append, savedEvents_append, savedEvents_append, hone,
    savedEvents_eq_nil_iff.2 hbefore, savedEvents_eq_nil_iff.2 hafter]
  rfl

/-- What is said at the end of a command tells of no saved file. -/
theorem Ending.report_savesNothing (e : Ending) : SavesNothing (e.report .standard).events := by
  cases e with
  | returned _ => exact savesNothing_nil
  | failed _ => exact savesNothing_event (by decide)
  | interrupted => exact savesNothing_event (by decide)
  | unexpected _ _ => exact savesNothing_event (by decide)

/-- What is told of a call tells of no saved file. -/
theorem savedEvents_respond {v : Server} {transport : Transport} {call : ServerCall}
    {events : List Event} : savedEvents ((v.respond transport call).events ++ events) =
      savedEvents events := by
  have hquiet : SavesNothing (v.respond transport call).events := Request.outcome_savesNothing _ _
  rw [savedEvents_append, savedEvents_eq_nil_iff.2 hquiet]
  rfl

/-- What a server is asked between two stretches of events tells of no saved file. -/
theorem savedEvents_append_respond {v : Server} {transport : Transport} {call : ServerCall}
    {events later : List Event} (quiet : SavesNothing events) :
    savedEvents (events ++ (v.respond transport call).events ++ later) = savedEvents later := by
  rw [List.append_assoc, savedEvents_append, savedEvents_respond, savedEvents_eq_nil_iff.2 quiet]
  rfl

/-! ## Courses -/

namespace Course

variable {α β : Type}

/-- What comes of a course: it has sent these requests and told of these saved files up to its
outcome, and these items were printed last. -/
structure ComesTo (x : Course α) (printed : List Item) (saved : List Event) (sent : List Request)
    (outcome : Except Ending α) : Prop where
  printed : printed <:+ x.printed
  saved : savedEvents x.events = saved
  sent : x.sent = sent
  outcome : x.outcome = outcome

variable {x : Course α} {f : α → Course β} {printed : List Item} {saved : List Event}
  {sent : List Request} {outcome : Except Ending β}

theorem comesTo_print (items : List Item) : (print items).ComesTo items [] [] (.ok ()) :=
  ⟨List.suffix_rfl, rfl, rfl, rfl⟩

theorem ofExcept_ok_bind (a : α) : ofExcept id (.ok a) >>= f = f a := rfl

theorem comesTo_ofExcept_error_bind (e : Ending) :
    (ofExcept id (.error e) >>= f).ComesTo [] [] [] (.error e) :=
  ⟨List.nil_suffix, rfl, rfl, rfl⟩

/-- What a session did comes to what it saved and sent. -/
theorem comesTo_follow {v : Server} {s : Session} {calls : List ServerCall} {events : List Event}
    {result : Outcome} (hsaved : savedEvents events = saved) :
    (follow v ⟨s, calls, events, result⟩).ComesTo [] saved (v.requestsFor calls)
      (succeeded (s, result) result) :=
  ⟨List.suffix_rfl, hsaved, rfl, rfl⟩

/-- Two courses one behind the other come to what both of them come to. -/
theorem ComesTo.bind_ok {first : List Item} {saved' : List Event} {sent' : List Request} {a : α}
    (h : x.ComesTo first saved' sent' (.ok a)) (hf : (f a).ComesTo printed saved sent outcome) :
    (x >>= f).ComesTo printed (saved' ++ saved) (sent' ++ sent) outcome := by
  have hx : x >>= f = ⟨x.printed ++ (f a).printed, x.events ++ (f a).events,
    x.sent ++ (f a).sent, (f a).outcome⟩ := Course.bind_ok h.outcome f
  rw [hx]
  refine ⟨hf.printed.trans (List.suffix_append _ _), ?_, ?_, hf.outcome⟩
  · rw [savedEvents_append, h.saved, hf.saved]
  · rw [h.sent, hf.sent]

/-- The second of two courses sends and saves nothing. -/
theorem ComesTo.bind_silent {first : List Item} {a : α} (h : x.ComesTo first saved sent (.ok a))
    (hf : (f a).ComesTo printed [] [] outcome) : (x >>= f).ComesTo printed saved sent outcome := by
  have hboth := h.bind_ok hf
  rwa [List.append_nil, List.append_nil] at hboth

/-- A course that ends early comes to nothing more. -/
theorem ComesTo.bind_error {first : List Item} {e : Ending}
    (h : x.ComesTo first saved sent (.error e)) :
    (x >>= f).ComesTo [] saved sent (.error e) := by
  have hx : x >>= f = ⟨x.printed, x.events, x.sent, .error e⟩ := Course.bind_error h.outcome f
  rw [hx]
  exact ⟨List.nil_suffix, h.saved, h.sent, rfl⟩

/-- What is printed last may be left out. -/
theorem ComesTo.forget {outcome : Except Ending α} (h : x.ComesTo printed saved sent outcome) :
    x.ComesTo [] saved sent outcome :=
  ⟨List.nil_suffix, h.saved, h.sent, h.outcome⟩

/-- What is printed on the way does not matter. -/
theorem ComesTo.print_bind {f : Unit → Course β} (hf : (f ()).ComesTo printed saved sent outcome)
    (items : List Item) : (print items >>= f).ComesTo printed saved sent outcome :=
  (comesTo_print items).bind_ok hf

/-- What is printed before a value is printed last. -/
theorem comesTo_print_return (items : List Item) (a : α) :
    (do print items; return a : Course α).ComesTo items [] [] (.ok a) :=
  ⟨⟨[], (List.append_nil items).symm⟩, rfl, rfl, rfl⟩

end Course

/-! ## Calls -/

namespace Session

variable {s : Session} {respond : Responder}

/-- A load asks for the dashboard and ends with the reply. -/
theorem complete_startLoad {t : Session} {events : List Event} {outcome : Outcome}
    (hlast : s.resumeLoad (respond (.dashboard s.params.dashboardUid)).outcome =
      ⟨t, events, .ends outcome⟩) :
    complete respond s.startLoad =
      ⟨t, [.dashboard s.params.dashboardUid],
        (respond (.dashboard s.params.dashboardUid)).events ++ events, outcome⟩ := by
  have hwaits : s.startLoad.next = .waits .load := rfl
  rw [complete_of_ends hwaits hlast rfl]
  rfl

theorem complete_ended {step : Step} {outcome : Outcome} (h : step.next = .ends outcome) :
    complete respond step = ⟨step.session, [], step.events, outcome⟩ := by
  simp only [complete, run_ends h, outcomeOf]

/-- An export that waits asks for its results and ends with the reply. -/
theorem complete_results {events : List Event} {options : ExportOptions} {batch : Batch}
    {last : Step} {outcome : Outcome}
    (hlast : s.resumeResults options batch (respond (.results batch)).outcome = last)
    (hends : last.next = .ends outcome) :
    complete respond ⟨s, events, .waits (.results options batch)⟩ =
      ⟨last.session, [.results batch], events ++ (respond (.results batch)).events ++ last.events,
        outcome⟩ := by
  have hwaits : (Step.mk s events (.waits (.results options batch))).next =
      .waits (.results options batch) := rfl
  rw [complete_of_ends hwaits hlast hends]
  rfl

end Session

namespace Command

section Halves

variable {s : Session} {v : Server} {w : Surroundings}

/-! ## The panel -/

/-- What the server replies to a load. -/
def loadReply (s : Session) (v : Server) (w : Surroundings) : Except CallFault Document :=
  (v.respond w.transport (.dashboard s.params.dashboardUid)).outcome

theorem loadReply_eq : loadReply s v w =
    ((v.dashboardRequest s.params.dashboardUid).outcome
      (w.transport (v.dashboardRequest s.params.dashboardUid))).outcome := rfl

/-- Where the load fails, the command ends with its fault and prints nothing. -/
theorem showPanel_of_error {fault : RunFault} (h : s.fetched (loadReply s v w) = .error fault) :
    (showPanel s v w).ComesTo [] [] (v.requestsFor [.dashboard s.params.dashboardUid])
      (.error (.ofFault fault)) := by
  obtain ⟨events, hquiet, hlast⟩ := Session.resumeLoad_of_error h
  have hnothing := savedEvents_eq_nil_iff.2 hquiet
  unfold showPanel
  rw [Session.complete_startLoad hlast]
  exact (Course.comesTo_follow (savedEvents_respond.trans hnothing)).bind_error.print_bind _

theorem showPanel_of_ok {panel : Panel} (opened : s.cancelled = false)
    (h : s.fetched (loadReply s v w) = .ok panel) :
    (showPanel s v w).ComesTo [] [] (v.requestsFor [.dashboard s.params.dashboardUid])
      (.ok (s.store panel)) := by
  obtain ⟨events, hquiet, hlast⟩ := Session.resumeLoad_of_ok opened h
  have hnothing := savedEvents_eq_nil_iff.2 hquiet
  unfold showPanel
  rw [Session.complete_startLoad hlast]
  refine ((Course.comesTo_follow (savedEvents_respond.trans hnothing)).bind_silent ?_).print_bind _
  exact (Course.comesTo_print_return _ _).forget

/-! ## The results -/

/-- What comes of an export that has its panel: nothing is sent, or the reply fails it, or the
results in the reply are saved. -/
inductive Batched (v : Server) (w : Surroundings) (files : FileTree) :
    List Item → List Event → List Request → Except Ending Completion → Prop where
  | nothing : Batched v w files [] [] [] (.ok ⟨.warning, files⟩)
  | broken {fault : BatchFault} : Batched v w files [] [] [] (.error (.ofFault (.batch fault)))
  | failed {batch : Batch} {fault : RunFault} (late : fault.IsLate) :
      Batched v w files [] [] (v.requestsFor [.results batch]) (.error (.ofFault fault))
  | saved {batch : Batch} {d : Document} {result : QueryResult} {path : Path}
      {files' : FileTree} {e : Export}
      (replied : (v.respond w.transport (.results batch)).outcome = .ok d)
      (saves : e.Saves d result path files files') :
      Batched v w files (exportItems e) [FileTree.savedEvent path result.text]
        (v.requestsFor [.results batch]) (.ok ⟨.success, files'⟩)

/-- An export is followed to its end. -/
def exportFrom (v : Server) (w : Surroundings) (started : Step) : Course Completion := do
  let (session, outcome) ← Course.follow v (Session.complete (v.respond w.transport) started)
  completeExport session outcome

/-- An export that has its panel comes to one of its ends. -/
def Ends (v : Server) (w : Surroundings) (files : FileTree) (x : Course Completion) : Prop :=
  ∃ printed saved sent outcome, Batched v w files printed saved sent outcome ∧
    x.ComesTo printed saved sent outcome

/-- An export that waits for its results saves its file or ends with what went wrong. -/
theorem exportFrom_waits (s : Session) {events : List Event} {options : ExportOptions}
    {batch : Batch} (quiet : SavesNothing events) (opened : s.cancelled = false)
    (save : options.save = true) :
    Ends v w s.files (exportFrom v w ⟨s, events, .waits (.results options batch)⟩) := by
  have hends := Session.resumeResults_resultsEnd opened save batch
    (v.respond w.transport (.results batch)).outcome
  generalize hlast :
    s.resumeResults options batch (v.respond w.transport (.results batch)).outcome = last at hends
  unfold exportFrom
  cases hends with
  | failed late hquiet =>
    have hnothing := savedEvents_eq_nil_iff.2 hquiet
    rw [Session.complete_results hlast rfl]
    exact ⟨_, _, _, _, .failed late,
      (Course.comesTo_follow ((savedEvents_append_respond quiet).trans hnothing)).bind_error⟩
  | @saved d result path files e before after replied saves hbefore hafter =>
    have hone := savedEvents_saved hbefore hafter path result.text
    rw [Session.complete_results hlast rfl]
    refine ⟨_, _, _, _, .saved replied saves, Course.ComesTo.bind_silent
      (Course.comesTo_follow ((savedEvents_append_respond quiet).trans hone)) ?_⟩
    exact Course.comesTo_print_return _ _

/-- An export of a panel that is held has nothing to send, or it waits for its results. -/
theorem exportFrom_startExport (s : Session) {panel : Panel} {options : ExportOptions}
    (opened : s.cancelled = false) (idle : s.busy = false) (held : s.panel? = some panel)
    (save : options.save = true) : Ends v w s.files (exportFrom v w (s.startExport options)) := by
  have hstarted := Session.startExport_batchSent options opened idle held
  generalize s.startExport options = started at hstarted ⊢
  cases hstarted with
  | nothing quiet =>
    have hsaved := savedEvents_eq_nil_iff.2 quiet
    unfold exportFrom
    rw [Session.complete_ended rfl]
    refine ⟨_, _, _, _, .nothing, (Course.comesTo_follow hsaved).bind_silent ?_⟩
    exact (Course.comesTo_print_return _ _).forget
  | failed quiet =>
    have hsaved := savedEvents_eq_nil_iff.2 quiet
    unfold exportFrom
    rw [Session.complete_ended rfl]
    exact ⟨_, _, _, _, .broken, (Course.comesTo_follow hsaved).bind_error⟩
  | waits quiet => exact exportFrom_waits { s with busy := true } quiet opened save

end Halves

/-! ## The whole -/

section Whole

variable {words : ExportWords} {w : Surroundings} {s : Session} {v : Server}

/-- A session that is opened is a fresh one. -/
theorem openSession_ok {fields : Fields} (h : openSession fields w = .ok (s, v)) :
    ∃ params settings, s = .create params settings w.files := by
  obtain ⟨params, -, h⟩ := bind_eq_ok.1 h
  obtain ⟨settings, -, h⟩ := bind_eq_ok.1 h
  obtain ⟨server, -, h⟩ := bind_eq_ok.1 h
  cases h
  exact ⟨params, settings, rfl⟩

/-- Parameters that are refused end the command as a configuration does, or a number takes it down.
-/
theorem parameters_code {fault : RunFault}
    (h : ExportParams.ofFields words.parameters = .error fault) :
    (Ending.ofFault fault).code = 10 ∨ (Ending.ofFault fault).code = 127 := by
  by_cases hbreaks : ∃ fault', ExportParams.Breaks words.parameters fault'
  · obtain ⟨fault', hbreaks⟩ := hbreaks
    obtain rfl := Except.error.inj (h.symm.trans (ExportParams.ofFields_of_breaks hbreaks))
    exact .inr (ExportParams.code_of_breaks hbreaks)
  · have hsettled := ExportParams.settled_of_not_breaks (textual_parameters words)
      fun fault' hfault' => hbreaks ⟨fault', hfault'⟩
    rw [h] at hsettled
    exact .inl (ExportParams.code_of_settled hsettled)

/-- An export that opens no session ends with the number for configuration, or with the one for what
is not foreseen. -/
theorem openSession_code {e : Ending} (h : openSession words.parameters w = .error e) :
    e.code = 10 ∨ e.code = 127 := by
  rcases bind_eq_error.1 h with h | ⟨params, -, h⟩
  · obtain ⟨fault, hfault, rfl⟩ := mapError_eq_error.1 h
    exact parameters_code hfault
  rcases bind_eq_error.1 h with h | ⟨settings, -, h⟩
  · obtain ⟨fault, -, rfl⟩ := mapError_eq_error.1 h
    exact .inr rfl
  rcases bind_eq_error.1 h with h | ⟨server, -, h⟩
  · obtain ⟨failure, hfailure, rfl⟩ := mapError_eq_error.1 h
    unfold serverOf at hfailure
    split at hfailure
    · cases hfailure
      exact .inl rfl
    · cases hfailure
  · cases h

/-- Without a session nothing is asked for. -/
theorem exportCourse_of_error {e : Ending} (h : openSession words.parameters w = .error e) :
    (exportCourse words w).ComesTo [] [] [] (.error e) := by
  unfold exportCourse
  rw [h]
  exact Course.comesTo_ofExcept_error_bind e

/-- Without a panel nothing but the dashboard is asked for. -/
theorem exportCourse_of_unloaded {fault : RunFault}
    (opened : openSession words.parameters w = .ok (s, v))
    (h : s.fetched (loadReply s v w) = .error fault) :
    (exportCourse words w).ComesTo [] [] (v.requestsFor [.dashboard s.params.dashboardUid])
      (.error (.ofFault fault)) := by
  unfold exportCourse
  rw [opened, Course.ofExcept_ok_bind]
  exact (showPanel_of_error h).bind_error.print_bind _

/-- With a panel, the dashboard is asked for and then what the export sends. -/
theorem exportCourse_of_loaded {panel : Panel}
    (opened : openSession words.parameters w = .ok (s, v))
    (h : s.fetched (loadReply s v w) = .ok panel) :
    ∃ printed saved sent outcome, Batched v w w.files printed saved sent outcome ∧
      (exportCourse words w).ComesTo printed saved
        (v.requestsFor [.dashboard s.params.dashboardUid] ++ sent) outcome := by
  obtain ⟨params, settings, rfl⟩ := openSession_ok opened
  have hexport : Ends v w w.files
      (exportFrom v w (((Session.create params settings w.files).store panel).startExport
        ⟨words.directory?, words.datasource?, true⟩)) :=
    exportFrom_startExport ((Session.create params settings w.files).store panel) rfl rfl rfl rfl
  obtain ⟨printed, saved, sent, outcome, hbatched, hcomes⟩ := hexport
  refine ⟨printed, saved, sent, outcome, hbatched, ?_⟩
  unfold exportCourse
  rw [opened, Course.ofExcept_ok_bind]
  exact ((showPanel_of_ok rfl h).bind_ok (hcomes.print_bind _)).print_bind _

end Whole

end Command

end PanelExport
