import PanelExport.Proofs.Outcome
import PanelExport.Proofs.Session.Closing

/-!
# What a step of a call can do

Every step of a load or an export comes out in one of a few ways. For each kind of step they are
listed once, with what has to hold of the session for that way out, so that what steps keep is shown
by going through the lists and no step is opened again.

* `receivePanel_received`: a dashboard reply is a fault, or its panel is dropped or stored.
* `startExport_started`, `sendBatch_sent`, `resumeLoad_returned`, `resumePanel_resumed`,
  `resumeResults_finished`: the ways out of each kind of step.
* `Exchange.Turn.changed`: what the turn of a call does to the session.
* `fetchPanel_ok`: a panel that was fetched has the number and the dashboard that were asked for.
-/

namespace PanelExport

/-! ## Fetching -/

/-- What is found under a number has that number. -/
theorem hasNumber_of_findPanel {id : Int} {panels : List Document} {node : Fields}
    (h : findPanel id panels = some node) : hasNumber id node = true := by
  induction panels using findPanel.induct id with
  | case1 => simp [findPanel_nil] at h
  | case2 rest panel hp =>
    rw [findPanel_cons, if_pos hp] at h
    exact Option.some.inj h ▸ hp
  | case3 rest panel hp inner outer =>
    rw [findPanel_cons, if_neg hp, Option.or_eq_some_iff] at h
    exact h.elim inner fun h => outer h.2
  | case4 rest d hd ih =>
    rw [findPanel] at h
    · exact ih h
    · exact hd

theorem lookup_of_hasNumber {id : Int} {node : Fields} (h : hasNumber id node = true) :
    node.lookup "id" = some (.int id) := by
  unfold hasNumber at h
  split at h
  · rename_i n hn
    rw [hn, beq_iff_eq.1 h]
  · cases h

theorem ofNode_ok {node : Fields} {uid : String} {panel : Panel}
    (h : Panel.ofNode node uid = .ok panel) :
    node.lookup "id" = some panel.id ∧ panel.dashboardUid = uid := by
  unfold Panel.ofNode at h
  split at h
  · cases h
  · rename_i id hid
    cases h
    exact ⟨hid, rfl⟩

/-- A panel that was fetched has the number and the dashboard that were asked for. -/
theorem fetchPanel_ok {uid : String} {id : Int} {reply : Except CallFault Document} {panel : Panel}
    (h : (fetchPanel uid id reply).outcome = .ok panel) :
    panel.id = .int id ∧ panel.dashboardUid = uid := by
  obtain ⟨dashboard, -, h⟩ := Logged.outcome_bind_eq_ok.1 h
  obtain ⟨event, -, h⟩ := Logged.outcome_bind_eq_ok.1 h
  obtain ⟨-, -, h⟩ := Logged.outcome_bind_eq_ok.1 h
  obtain ⟨node?, hnode, h⟩ := Logged.outcome_bind_eq_ok.1 h
  obtain ⟨panels, -, hfind⟩ := exceptMap_eq_ok.1 (mapError_eq_ok.1 hnode)
  cases node? with
  | none => cases h
  | some node =>
    obtain ⟨hid, huid⟩ := ofNode_ok (mapError_eq_ok.1 h)
    rw [lookup_of_hasNumber (hasNumber_of_findPanel hfind)] at hid
    exact ⟨(Option.some.inj hid).symm, huid⟩

namespace Session

variable {s : Session}

/-- What a reply for the dashboard of the session holds of its panel. -/
def fetched (s : Session) (reply : Except CallFault Document) : Except RunFault Panel :=
  (fetchPanel s.params.dashboardUid s.params.panelId reply).outcome

/-- The session with a panel and its queries. -/
def store (s : Session) (panel : Panel) : Session :=
  { s with panel? := some panel, queries := panel.queries }

/-- What becomes of a dashboard reply. -/
inductive Received (s : Session) (reply : Except CallFault Document) :
    Session → Except RunFault (Option Panel) → Prop where
  | failed {fault : RunFault} (fetched : s.fetched reply = .error fault) :
      s.Received reply s (.error fault)
  | dropped {panel : Panel} (fetched : s.fetched reply = .ok panel) (closed : s.cancelled = true) :
      s.Received reply s (.ok none)
  | stored {panel : Panel} (fetched : s.fetched reply = .ok panel) (opened : s.cancelled = false) :
      s.Received reply (s.store panel) (.ok (some panel))

theorem receivePanel_received (s : Session) (reply : Except CallFault Document) :
    s.Received reply (s.receivePanel reply).1 (s.receivePanel reply).2.outcome := by
  unfold receivePanel
  dsimp only
  split
  · rename_i fault h
    exact .failed h
  · rename_i panel h
    split
    · rename_i closed
      exact .dropped h closed
    · rename_i opened
      exact .stored h (Bool.of_not_eq_true opened)

/-! ## Loads -/

/-- How a load ends. -/
inductive Returned (s : Session) (reply : Except CallFault Document) : Step → Prop where
  | failed {events : List Event} {fault : RunFault} (fetched : s.fetched reply = .error fault) :
      s.Returned reply ⟨s, events, .ends (.failed fault)⟩
  | dropped {events : List Event} : s.Returned reply ⟨s, events, .ends .nothing⟩
  | loaded {events : List Event} {panel : Panel} (fetched : s.fetched reply = .ok panel)
      (opened : s.cancelled = false) :
      s.Returned reply ⟨s.store panel, events, .ends (.loaded panel)⟩

theorem resumeLoad_returned (s : Session) (reply : Except CallFault Document) :
    s.Returned reply (s.resumeLoad reply) := by
  have h := s.receivePanel_received reply
  unfold resumeLoad
  generalize s.receivePanel reply = received at h
  obtain ⟨t, events, outcome⟩ := received
  cases h with
  | failed fetched => exact .failed fetched
  | dropped _ _ => exact .dropped
  | stored fetched opened => exact .loaded fetched opened

/-! ## Exports -/

/-- How an export comes out that is about to send its batch: it ends, or waits for the results. -/
inductive Sent (s : Session) (panel : Panel) (options : ExportOptions) : Step → Prop where
  | ended {events : List Event} {outcome : Outcome} (dropped : outcome.IsDropped) :
      s.Sent panel options (s.endExport events outcome)
  | waits {events : List Event} {uid : String} {batch : Batch}
      (datasource : s.datasourceFor panel options = some uid)
      (built : (s.buildBatch uid).outcome = .ok batch) :
      s.Sent panel options ⟨s, events, .waits (.results options batch)⟩

theorem sendBatch_sent (s : Session) (events : List Event) (panel : Panel)
    (options : ExportOptions) : s.Sent panel options (s.sendBatch events panel options) := by
  unfold sendBatch
  split
  · exact .ended (.inl rfl)
  · rename_i uid datasource
    dsimp only
    split
    · exact .ended (.inr ⟨_, rfl⟩)
    · rename_i batch built
      split
      · exact .ended (.inl rfl)
      · exact .waits datasource built

/-- The first step of an export. -/
inductive Started (s : Session) (options : ExportOptions) : Step → Prop where
  | refused {events : List Event} (refused : s.cancelled = true ∨ s.busy = true) :
      s.Started options ⟨s, events, .ends .nothing⟩
  | asked (opened : s.cancelled = false) (idle : s.busy = false) (empty : s.panel? = none) :
      s.Started options ⟨{ s with busy := true }, [], .waits (.panel options)⟩
  | sent {panel : Panel} {step : Step} (opened : s.cancelled = false) (idle : s.busy = false)
      (held : s.panel? = some panel) (sent : Sent { s with busy := true } panel options step) :
      s.Started options step

theorem startExport_started (s : Session) (options : ExportOptions) :
    s.Started options (s.startExport options) := by
  unfold startExport
  split
  · rename_i closed
    exact .refused (.inl closed)
  · rename_i opened
    split
    · rename_i busy
      exact .refused (.inr busy)
    · rename_i idle
      have opened := Bool.of_not_eq_true opened
      have idle := Bool.of_not_eq_true idle
      dsimp only
      split
      · rename_i empty
        exact .asked opened idle empty
      · rename_i panel held
        exact .sent opened idle held (sendBatch_sent ..)

/-- How an export goes on that waited for its dashboard. -/
inductive Resumed (s : Session) (options : ExportOptions) (reply : Except CallFault Document) :
    Step → Prop where
  | ended {events : List Event} {outcome : Outcome} (dropped : outcome.IsDropped) :
      s.Resumed options reply (s.endExport events outcome)
  | sent {panel : Panel} {step : Step} (fetched : s.fetched reply = .ok panel)
      (opened : s.cancelled = false) (sent : (s.store panel).Sent panel options step) :
      s.Resumed options reply step

theorem resumePanel_resumed (s : Session) (options : ExportOptions)
    (reply : Except CallFault Document) :
    s.Resumed options reply (s.resumePanel options reply) := by
  have h := s.receivePanel_received reply
  unfold resumePanel
  generalize s.receivePanel reply = received at h
  obtain ⟨t, events, outcome⟩ := received
  cases h with
  | failed _ => exact .ended (.inr ⟨_, rfl⟩)
  | dropped _ _ => exact .ended (.inl rfl)
  | stored fetched opened => exact .sent fetched opened (sendBatch_sent ..)

/-- How an export ends that waited for its results. -/
inductive Finished (s : Session) (batch : Batch) : Step → Prop where
  | ended {events : List Event} {outcome : Outcome} (dropped : outcome.IsDropped) :
      s.Finished batch (s.endExport events outcome)
  | exported {events : List Event} {files : FileTree} {result : Export}
      (opened : s.cancelled = false) (filename : result.filename = s.filename)
      (sent : result.batch = batch) :
      s.Finished batch
        (endExport { s with files, lastExport? := some result } events (.exported result))

theorem resumeResults_finished (s : Session) (options : ExportOptions) (batch : Batch)
    (reply : Except CallFault Document) :
    s.Finished batch (s.resumeResults options batch reply) := by
  unfold resumeResults
  split
  · exact .ended (.inr ⟨_, rfl⟩)
  · split
    · exact .ended (.inl rfl)
    · rename_i opened
      split
      · exact .ended (.inr ⟨_, rfl⟩)
      · unfold finishExport
        split
        · exact .ended (.inr ⟨_, rfl⟩)
        · exact .exported (Bool.of_not_eq_true opened) rfl rfl

/-- Only an export that waited for its dashboard waits once more, for its results. -/
theorem resume_waits {reply : Except CallFault Document} {w w' : Waiting}
    (h : (s.resume reply w).next = .waits w') :
    ∃ options batch, w = .panel options ∧ w' = .results options batch := by
  have hrank := rank_resume_lt h
  cases w with
  | load => exact absurd hrank (Nat.not_lt_zero _)
  | results options batch => exact absurd hrank (Nat.not_lt_zero _)
  | panel options =>
    have hr := s.resumePanel_resumed options reply
    change (s.resumePanel options reply).next = .waits w' at h
    generalize s.resumePanel options reply = step at hr h
    cases hr with
    | ended _ => cases h
    | sent _ _ sent =>
      cases sent with
      | ended _ => cases h
      | waits _ _ =>
        cases h
        exact ⟨options, _, rfl, rfl⟩

end Session

/-! ## Turns -/

namespace Exchange

variable {x : Exchange} {stimulus : Stimulus} {number : Nat} {step : Step}

/-- What the turn of a call does to the session, the busy mark aside: nothing, or a load stores its
panel, or an export stores the panel that it waited for, or an export is complete. -/
inductive Changed (x : Exchange) (stimulus : Stimulus) (number : Nat) (step : Step) : Prop where
  | kept {busy : Bool} (session : step.session = { x.session with busy })
      (dropped : ∀ outcome, step.next = .ends outcome → outcome.IsDropped)
  | loaded {panel : Panel} {reply : Except CallFault Document}
      (replied : stimulus = .reply number reply)
      (waits : x.calls[number]? = some (.waits .load))
      (fetched : x.session.fetched reply = .ok panel)
      (session : step.session = x.session.store panel)
      (ends : step.next = .ends (.loaded panel))
  | stored {panel : Panel} {options : ExportOptions} {reply : Except CallFault Document}
      {busy : Bool} (replied : stimulus = .reply number reply)
      (waits : x.calls[number]? = some (.waits (.panel options)))
      (fetched : x.session.fetched reply = .ok panel)
      (session : step.session = { x.session.store panel with busy })
      (dropped : ∀ outcome, step.next = .ends outcome → outcome.IsDropped)
  | exported {options : ExportOptions} {files : FileTree} {result : Export} {busy : Bool}
      (waits : x.calls[number]? = some (.waits (.results options result.batch)))
      (filename : result.filename = x.session.filename)
      (session : step.session = { x.session with busy, files, lastExport? := some result })
      (ends : step.next = .ends (.exported result))

/-- What an export does that is about to send its batch, to the session as it stands then. -/
private theorem sent_kept {s : Session} {panel : Panel} {options : ExportOptions}
    (h : s.Sent panel options step) :
    (∃ busy, step.session = { s with busy }) ∧
      ∀ outcome, step.next = .ends outcome → outcome.IsDropped := by
  cases h with
  | ended dropped =>
    refine ⟨⟨false, rfl⟩, fun outcome h => ?_⟩
    cases h
    exact dropped
  | waits _ _ => exact ⟨⟨s.busy, rfl⟩, nofun⟩

theorem Turn.changed (h : x.Turn stimulus number step) : x.Changed stimulus number step := by
  cases h with
  | load => exact .kept rfl nofun
  | «export» options =>
    have hstep := x.session.startExport_started options
    generalize x.session.startExport options = step at hstep
    cases hstep with
    | refused _ =>
      refine .kept rfl fun outcome h => ?_
      cases h
      exact .inl rfl
    | asked _ _ _ => exact .kept rfl nofun
    | sent _ _ _ sent =>
      obtain ⟨⟨busy, hsession⟩, hdropped⟩ := sent_kept sent
      exact .kept hsession hdropped
  | @reply _ w reply waits =>
    cases w with
    | load =>
      have hstep := x.session.resumeLoad_returned reply
      simp only [Session.resume]
      generalize x.session.resumeLoad reply = step at hstep
      cases hstep with
      | failed _ =>
        refine .kept rfl fun outcome h => ?_
        cases h
        exact .inr ⟨_, rfl⟩
      | dropped =>
        refine .kept rfl fun outcome h => ?_
        cases h
        exact .inl rfl
      | loaded fetched _ => exact .loaded rfl waits fetched rfl rfl
    | panel options =>
      have hstep := x.session.resumePanel_resumed options reply
      simp only [Session.resume]
      generalize x.session.resumePanel options reply = step at hstep
      cases hstep with
      | ended dropped =>
        refine .kept rfl fun outcome h => ?_
        cases h
        exact dropped
      | sent fetched _ sent =>
        obtain ⟨⟨busy, hsession⟩, hdropped⟩ := sent_kept sent
        exact .stored rfl waits fetched hsession hdropped
    | results options batch =>
      have hstep := x.session.resumeResults_finished options batch reply
      simp only [Session.resume]
      generalize x.session.resumeResults options batch reply = step at hstep
      cases hstep with
      | ended dropped =>
        refine .kept rfl fun outcome h => ?_
        cases h
        exact dropped
      | exported _ filename sent => exact .exported (sent ▸ waits) filename rfl rfl

end Exchange

end PanelExport
