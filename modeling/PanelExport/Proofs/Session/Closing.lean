import PanelExport.Proofs.Session.Exchange

/-!
# Closed sessions

After a session was closed its calls go on until they end, and more may be started, but nothing
comes of them: what they would store is dropped, what they would send is not sent.

* `Session.startExport_drops`, `Session.resume_drops`: the steps of a closed session.
* `Exchange.advance_drops`, `Exchange.run_drops`: what one stimulus does to a closed session, and
  what a course of them does.
* `Exchange.close_freezes`: whatever happens after the close leaves the session as it was.
-/

namespace PanelExport

/-- What a session has come to: its panel, the queries, the last export and the files. -/
def Session.contents (s : Session) :
    Option Panel × List PanelQuery × Option Export × FileTree :=
  (s.panel?, s.queries, s.lastExport?, s.files)

/-- A call has come to nothing, or has failed. -/
def Outcome.IsDropped (outcome : Outcome) : Prop :=
  outcome = .nothing ∨ ∃ fault, outcome = .failed fault

/-- No batch was sent, no file was saved, and a call that ended has come to nothing or failed. -/
structure Effect.Dropped (effect : Effect) : Prop where
  sent : ∀ batch, effect.sent? ≠ some (.results batch)
  saved : ∀ path text, FileTree.savedEvent path text ∉ effect.events
  outcome : ∀ outcome ∈ effect.outcome?, outcome.IsDropped

/-- A step that leaves a closed session as it is and shows nothing but dropped work. -/
structure Step.Drops (s : Session) (step : Step) : Prop where
  closed : step.session.cancelled = true
  contents : step.session.contents = s.contents
  effect : ∀ number, (step.effect number).Dropped

/-! ## Events -/

theorem Logged.mem_events_bind {ε α β : Type} {x : Logged ε α} {f : α → Logged ε β} {event : Event}
    (h : event ∈ (x >>= f).events) :
    event ∈ x.events ∨ ∃ a, x.outcome = .ok a ∧ event ∈ (f a).events := by
  obtain ⟨events, outcome⟩ := x
  cases outcome with
  | error e => exact .inl h
  | ok a => exact (List.mem_append.1 h).imp id fun h => ⟨a, rfl, h⟩

theorem fetchedEvent_name {uid : String} {dashboard : Fields} {event : Event}
    (h : fetchedEvent uid dashboard = .ok event) : event.name = "dashboard_fetched" := by
  unfold fetchedEvent at h
  cases hc : ((dashboard.lookup "panels").getD .null).count with
  | error e => simp [hc, bind, Except.bind] at h
  | ok n =>
    rw [hc] at h
    cases h
    rfl

theorem panelIn_events {uid : String} {id : Int} {node? : Option Fields} {event : Event}
    (h : event ∈ (panelIn uid id node?).events) : event.name = "panel_not_found" := by
  cases node? with
  | none =>
    rcases Logged.mem_events_bind h with h | ⟨_, -, h⟩
    · rw [List.mem_singleton.1 h]
    · cases h
  | some node => cases h

/-- Fetching a panel tells of no saved file. -/
theorem fetchPanel_events {uid : String} {id : Int} {reply : Except CallFault Document}
    {event : Event} (h : event ∈ (fetchPanel uid id reply).events) :
    event.name ≠ "export_saved" := by
  rcases Logged.mem_events_bind h with h | ⟨dashboard, -, h⟩
  · cases h
  rcases Logged.mem_events_bind h with h | ⟨fetched, hf, h⟩
  · cases h
  rcases Logged.mem_events_bind h with h | ⟨_, -, h⟩
  · have hname : fetched.name = "dashboard_fetched" := by
      cases he : fetchedEvent uid dashboard with
      | error e =>
        rw [he] at hf
        cases hf
      | ok e =>
        rw [he] at hf
        cases hf
        exact fetchedEvent_name he
    rw [List.mem_singleton.1 h, hname]
    decide
  rcases Logged.mem_events_bind h with h | ⟨node?, -, h⟩
  · cases h
  · rw [panelIn_events h]
    decide

theorem not_mem_savedEvent {events : List Event}
    (h : ∀ event ∈ events, event.name ≠ "export_saved") (path : Path) (text : String) :
    FileTree.savedEvent path text ∉ events :=
  fun hm => h _ hm rfl

/-! ## Steps -/

/-- A step that ends its call, without having done anything. -/
theorem Step.drops_of_ends {s : Session} {step : Step} {outcome : Outcome}
    (closed : step.session.cancelled = true) (contents : step.session.contents = s.contents)
    (events : ∀ event ∈ step.events, event.name ≠ "export_saved")
    (ends : step.next = .ends outcome) (dropped : outcome.IsDropped) : step.Drops s where
  closed
  contents
  effect number := by
    simp only [effect, ends]
    exact ⟨nofun, not_mem_savedEvent events, by simpa using dropped⟩

namespace Session

variable {s : Session}

theorem startLoad_drops (h : s.cancelled = true) : s.startLoad.Drops s where
  closed := h
  contents := rfl
  effect _ := ⟨nofun, nofun, nofun⟩

theorem startExport_drops (h : s.cancelled = true) (options : ExportOptions) :
    (s.startExport options).Drops s := by
  rw [startExport_closed h]
  exact Step.drops_of_ends h rfl nofun rfl (.inl rfl)

theorem discardedEvent_name (s : Session) (stage : String) :
    (s.discardedEvent stage).name = "stage_discarded" := rfl

/-- A closed session drops the panel that it gets. -/
theorem receivePanel_closed (h : s.cancelled = true) (reply : Except CallFault Document) :
    (s.receivePanel reply).1 = s ∧
      (∀ event ∈ (s.receivePanel reply).2.events, event.name ≠ "export_saved") ∧
      ∀ panel, (s.receivePanel reply).2.outcome ≠ .ok (some panel) := by
  unfold receivePanel
  dsimp only
  split
  · exact ⟨rfl, fun event hm => fetchPanel_events hm, nofun⟩
  · rw [if_pos h]
    refine ⟨rfl, fun event hm => ?_, nofun⟩
    rcases List.mem_append.1 hm with hm | hm
    · exact fetchPanel_events hm
    · rw [List.mem_singleton.1 hm, discardedEvent_name]
      decide

theorem resumeLoad_drops (h : s.cancelled = true) (reply : Except CallFault Document) :
    (s.resumeLoad reply).Drops s := by
  obtain ⟨hs, hevents, hnone⟩ := receivePanel_closed h reply
  have hsession : (s.resumeLoad reply).session = s := hs
  have hclosed : (s.resumeLoad reply).session.cancelled = true := by rw [hsession, h]
  have hcontents : (s.resumeLoad reply).session.contents = s.contents := by rw [hsession]
  cases ho : (s.receivePanel reply).2.outcome with
  | error fault =>
    have hends : (s.resumeLoad reply).next = .ends (.failed fault) := by simp only [resumeLoad, ho]
    exact Step.drops_of_ends hclosed hcontents hevents hends (.inr ⟨fault, rfl⟩)
  | ok panel? =>
    cases panel? with
    | some panel => exact absurd ho (hnone panel)
    | none =>
      have hends : (s.resumeLoad reply).next = .ends .nothing := by simp only [resumeLoad, ho]
      exact Step.drops_of_ends hclosed hcontents hevents hends (.inl rfl)

theorem endExport_drops (h : s.cancelled = true) {events : List Event} {outcome : Outcome}
    (hevents : ∀ event ∈ events, event.name ≠ "export_saved") (dropped : outcome.IsDropped) :
    (s.endExport events outcome).Drops s :=
  Step.drops_of_ends h rfl hevents rfl dropped

theorem resumePanel_drops (h : s.cancelled = true) (options : ExportOptions)
    (reply : Except CallFault Document) : (s.resumePanel options reply).Drops s := by
  obtain ⟨hs, hevents, hnone⟩ := receivePanel_closed h reply
  unfold resumePanel
  dsimp only
  rw [hs]
  split
  · exact endExport_drops h hevents (.inr ⟨_, rfl⟩)
  · exact endExport_drops h hevents (.inl rfl)
  · rename_i panel ho
    exact absurd ho (hnone panel)

theorem resumeResults_drops (h : s.cancelled = true) (options : ExportOptions) (batch : Batch)
    (reply : Except CallFault Document) : (s.resumeResults options batch reply).Drops s := by
  unfold resumeResults
  split
  · exact endExport_drops h nofun (.inr ⟨_, rfl⟩)
  · rw [if_pos h]
    refine endExport_drops h (fun event hm => ?_) (.inl rfl)
    rw [List.mem_singleton.1 hm, discardedEvent_name]
    decide

/-- Nothing comes of the step of a call of a closed session. -/
theorem resume_drops (h : s.cancelled = true) (reply : Except CallFault Document) (w : Waiting) :
    (s.resume reply w).Drops s := by
  cases w with
  | load => exact resumeLoad_drops h reply
  | panel options => exact resumePanel_drops h options reply
  | results options batch => exact resumeResults_drops h options batch reply

end Session

/-! ## Courses -/

namespace Exchange

/-- What a stimulus does to a closed session. -/
theorem advance_drops {x : Exchange} (h : x.session.cancelled = true) (stimulus : Stimulus) :
    (x.advance stimulus).1.session.cancelled = true ∧
      (x.advance stimulus).1.session.contents = x.session.contents ∧
      (x.advance stimulus).2.Dropped := by
  have quiet : Effect.none.Dropped := ⟨nofun, nofun, nofun⟩
  cases stimulus with
  | load =>
    have hd := Session.startLoad_drops h
    exact ⟨hd.closed, hd.contents, hd.effect _⟩
  | «export» options =>
    have hd := Session.startExport_drops h options
    exact ⟨hd.closed, hd.contents, hd.effect _⟩
  | reply number reply =>
    simp only [advance]
    split
    · rename_i w _
      have hd := Session.resume_drops h reply w
      exact ⟨hd.closed, hd.contents, hd.effect _⟩
    · exact ⟨h, rfl, quiet⟩
  | close => exact ⟨rfl, rfl, quiet⟩

/-- What a course of stimuli does to a closed session. -/
theorem run_drops {x : Exchange} (h : x.session.cancelled = true) (stimuli : List Stimulus) :
    (x.run stimuli).1.session.cancelled = true ∧
      (x.run stimuli).1.session.contents = x.session.contents ∧
      ∀ effect ∈ (x.run stimuli).2, effect.Dropped := by
  have step : ∀ (y : Exchange) (stimulus : Stimulus),
      y.session.cancelled = true ∧ y.session.contents = x.session.contents →
        ((y.advance stimulus).1.session.cancelled = true ∧
          (y.advance stimulus).1.session.contents = x.session.contents) ∧
        (y.advance stimulus).2.Dropped := by
    rintro y stimulus ⟨hc, hs⟩
    obtain ⟨hclosed, hcontents, hdropped⟩ := advance_drops hc stimulus
    exact ⟨⟨hclosed, hcontents.trans hs⟩, hdropped⟩
  obtain ⟨⟨hclosed, hcontents⟩, hdropped⟩ := run_induction step ⟨h, rfl⟩ stimuli
  exact ⟨hclosed, hcontents, hdropped⟩

/-- Whatever happens after the close leaves the session as it was, sends no batch, saves no file,
and lets calls end only without a result. -/
theorem close_freezes (params : ExportParams) (settings : Settings) (files : FileTree)
    (before between after : List Stimulus) :
    let closed := ((create params settings files).run (before ++ .close :: between)).1
    (closed.run after).1.session.contents = closed.session.contents ∧
      ∀ effect ∈ (closed.run after).2, effect.Dropped := by
  intro closed
  have hclosed : closed.session.cancelled = true := by
    simp only [closed, run_append, run]
    exact (run_drops rfl between).1
  exact (run_drops hclosed after).2

end Exchange

end PanelExport
