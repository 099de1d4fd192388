import Mathlib.Data.List.Induction
import PanelExport.Proofs.Session.Steps

/-!
# The contents of a session

A session holds a panel together with its queries, or neither, and the last export that came out
well. Whatever its calls meet with, the queries are those of the panel, the panel is the one that
was asked for, and a call that fails or comes to nothing leaves behind no more than a panel that it
loaded.

* `Turn.lastExport`: only a complete export replaces the last export.
* `run_consistent`: panel and queries belong together in every course.
* `run_lastExport`: the last export is the last one that a call ended with.
* `contents_consistent`: both, with what each further stimulus may change.
-/

namespace PanelExport

/-- A panel waits to be loaded, by a load or for an export. -/
def Waiting.AsksPanel (w : Waiting) : Prop :=
  w = .load ∨ ∃ options, w = .panel options

/-- The export that a call ended with. -/
def Effect.exported? (effect : Effect) : Option Export :=
  match effect.outcome? with
  | some (.exported result) => some result
  | _ => .none

/-- The session holds no panel and no queries, or the panel that was asked for with its queries. -/
def Session.Consistent (params : ExportParams) (s : Session) : Prop :=
  (s.panel? = none ∧ s.queries = []) ∨
    ∃ panel, s.panel? = some panel ∧ s.queries = panel.queries ∧
      panel.id = .int params.panelId ∧ panel.dashboardUid = params.dashboardUid

theorem Step.exported?_of_dropped {step : Step} {number : Nat}
    (h : ∀ outcome, step.next = .ends outcome → outcome.IsDropped) :
    (step.effect number).exported? = none := by
  cases hnext : step.next with
  | waits w => simp [effect, hnext, Effect.exported?]
  | ends outcome =>
    rcases h outcome hnext with rfl | ⟨fault, rfl⟩ <;>
      simp [effect, hnext, Effect.exported?]

namespace Session

variable {s : Session}

/-- A load that fails leaves the session as it was, and no panel was to be had from its reply. -/
theorem resumeLoad_failed {reply : Except CallFault Document} {fault : RunFault}
    (h : (s.resumeLoad reply).next = .ends (.failed fault)) :
    s.fetched reply = .error fault ∧ (s.resumeLoad reply).session = s := by
  have hstep := s.resumeLoad_returned reply
  generalize s.resumeLoad reply = step at hstep h
  cases hstep with
  | failed fetched =>
    cases h
    exact ⟨fetched, rfl⟩
  | dropped => cases h
  | loaded _ _ => cases h

end Session

namespace Exchange

variable {x : Exchange} {stimulus : Stimulus} {number : Nat} {step : Step}

/-! ## One stimulus -/

/-- Only a complete export replaces the last export. -/
theorem Turn.lastExport (h : x.Turn stimulus number step) :
    step.session.lastExport? = (step.effect number).exported?.or x.session.lastExport? := by
  cases h.changed with
  | kept session dropped => rw [session, Step.exported?_of_dropped dropped, Option.none_or]
  | loaded _ _ _ session ends =>
    rw [session]
    simp [Step.effect, ends, Effect.exported?, Session.store]
  | stored _ _ _ session dropped =>
    rw [session, Step.exported?_of_dropped dropped, Option.none_or]
    rfl
  | exported _ _ session ends =>
    rw [session]
    simp [Step.effect, ends, Effect.exported?]

theorem advance_lastExport (x : Exchange) (stimulus : Stimulus) :
    (x.advance stimulus).1.session.lastExport? =
      (x.advance stimulus).2.exported?.or x.session.lastExport? := by
  rcases x.turn_or_quiet stimulus with ⟨_, _, h⟩ | h | h
  · rw [h.stepped.session, h.stepped.effect]
    exact h.lastExport
  · rw [h]
    rfl
  · rw [h]
    rfl

theorem advance_params (x : Exchange) (stimulus : Stimulus) :
    (x.advance stimulus).1.session.params = x.session.params ∧
      (x.advance stimulus).1.session.settings = x.session.settings := by
  rcases x.turn_or_quiet stimulus with ⟨_, _, h⟩ | h | h
  · rw [h.stepped.session]
    cases h.changed with
    | kept session _ => simp only [session, and_self]
    | loaded _ _ _ session _ => simp only [session, Session.store, and_self]
    | stored _ _ _ session _ => simp only [session, Session.store, and_self]
    | exported _ _ session _ => simp only [session, and_self]
  · rw [h]
    exact ⟨rfl, rfl⟩
  · rw [h]
    exact ⟨rfl, rfl⟩

/-- The panel and its queries change together, and only when a call gets the panel for which it
waits. -/
theorem advance_panel (x : Exchange) (stimulus : Stimulus) :
    ((x.advance stimulus).1.session.panel? = x.session.panel? ∧
        (x.advance stimulus).1.session.queries = x.session.queries) ∨
      ∃ number reply w panel, stimulus = .reply number reply ∧
        x.calls[number]? = some (.waits w) ∧ w.AsksPanel ∧ x.session.fetched reply = .ok panel ∧
        (x.advance stimulus).1.session.panel? = some panel ∧
        (x.advance stimulus).1.session.queries = panel.queries := by
  rcases x.turn_or_quiet stimulus with ⟨number, _, h⟩ | h | h
  · rw [h.stepped.session]
    cases h.changed with
    | kept session _ => exact .inl (by simp only [session, and_self])
    | @loaded panel reply replied waits fetched session _ =>
      refine .inr ⟨number, reply, _, panel, replied, waits, .inl rfl, fetched, ?_⟩
      simp only [session, Session.store, and_self]
    | @stored panel options reply _ replied waits fetched session _ =>
      refine .inr ⟨number, reply, _, panel, replied, waits, .inr ⟨options, rfl⟩, fetched, ?_⟩
      simp only [session, Session.store, and_self]
    | exported _ _ session _ => exact .inl (by simp only [session, and_self])
  · rw [h]
    exact .inl ⟨rfl, rfl⟩
  · rw [h]
    exact .inl ⟨rfl, rfl⟩

theorem advance_consistent {params : ExportParams} (hp : x.session.params = params)
    (h : x.session.Consistent params) (stimulus : Stimulus) :
    (x.advance stimulus).1.session.Consistent params := by
  rcases x.advance_panel stimulus with ⟨hpanel, hqueries⟩ |
    ⟨_, _, _, panel, -, -, -, fetched, hpanel, hqueries⟩
  · rwa [Session.Consistent, hpanel, hqueries]
  · obtain ⟨hid, huid⟩ := fetchPanel_ok fetched
    exact .inr ⟨panel, hpanel, hqueries, hp ▸ hid, hp ▸ huid⟩

/-! ## Courses -/

theorem run_params (x : Exchange) (course : List Stimulus) :
    (x.run course).1.session.params = x.session.params ∧
      (x.run course).1.session.settings = x.session.settings := by
  induction course using List.reverseRecOn with
  | nil => exact ⟨rfl, rfl⟩
  | append_singleton course stimulus ih =>
    obtain ⟨hp, hs⟩ := (x.run course).1.advance_params stimulus
    rw [run_concat]
    exact ⟨hp.trans ih.1, hs.trans ih.2⟩

/-- The session of an exchange holds a panel with its queries, or neither. -/
theorem run_consistent (params : ExportParams) (settings : Settings) (files : FileTree)
    (course : List Stimulus) :
    ((create params settings files).run course).1.session.Consistent params := by
  induction course using List.reverseRecOn with
  | nil => exact .inl ⟨rfl, rfl⟩
  | append_singleton course stimulus ih =>
    rw [run_concat]
    exact advance_consistent (run_params _ course).1 ih stimulus

/-- The last export is the last one that a call of the course ended with. -/
theorem run_lastExport (x : Exchange) (course : List Stimulus) :
    (x.run course).1.session.lastExport? =
      ((x.run course).2.filterMap Effect.exported?).getLast?.or x.session.lastExport? := by
  induction course using List.reverseRecOn with
  | nil => rfl
  | append_singleton course stimulus ih =>
    rw [run_concat]
    dsimp only
    rw [advance_lastExport, ih, List.filterMap_append, List.getLast?_append, Option.or_assoc]
    cases h : ((x.run course).1.advance stimulus).2.exported? <;> simp [h]

/-- In every course the session holds the panel that was asked for with its queries, or no panel and
no queries, and the last export is the one that the last complete export of the course ended with.
Whatever happens next: a load that fails, as its reply holds no such panel, leaves the session as it
is; only the end of a complete export replaces the last export; and the panel and the queries are
replaced only by those that the call asked for which gets its reply. -/
theorem contents_consistent (params : ExportParams) (settings : Settings) (files : FileTree)
    (course : List Stimulus) :
    let x := create params settings files
    let y := (x.run course).1
    y.session.Consistent params ∧
      y.session.lastExport? = ((x.run course).2.filterMap Effect.exported?).getLast? ∧
      ∀ stimulus,
        let z := (y.advance stimulus).1
        let effect := (y.advance stimulus).2
        (∀ number reply fault, stimulus = .reply number reply →
          y.calls[number]? = some (.waits .load) → effect.outcome? = some (.failed fault) →
            (fetchPanel params.dashboardUid params.panelId reply).outcome = .error fault ∧
              z.session = y.session) ∧
        (effect.exported? = none → z.session.lastExport? = y.session.lastExport?) ∧
        ((z.session.panel? = y.session.panel? ∧ z.session.queries = y.session.queries) ∨
          ∃ number reply w panel, stimulus = .reply number reply ∧
            y.calls[number]? = some (.waits w) ∧ w.AsksPanel ∧
            (fetchPanel params.dashboardUid params.panelId reply).outcome = .ok panel ∧
            z.session.panel? = some panel ∧ z.session.queries = panel.queries) := by
  intro x y
  have hparams : y.session.params = params := (run_params x course).1
  refine ⟨run_consistent params settings files course,
    (run_lastExport x course).trans Option.or_none, ?_⟩
  intro stimulus z effect
  refine ⟨?_, ?_, ?_⟩
  · rintro number reply fault rfl waits hfault
    have h := Turn.reply reply waits
    have heffect : effect = _ := h.stepped.effect
    rw [heffect] at hfault
    have hends : (y.session.resumeLoad reply).next = .ends (.failed fault) := by
      unfold Step.effect at hfault
      split at hfault
      · cases hfault
      · rename_i outcome hnext
        exact hnext.trans (congrArg Next.ends (Option.some.inj hfault))
    obtain ⟨hfetched, hsession⟩ := Session.resumeLoad_failed hends
    rw [Session.fetched, hparams] at hfetched
    exact ⟨hfetched, h.stepped.session.trans hsession⟩
  · intro hnone
    have hlast : z.session.lastExport? = effect.exported?.or y.session.lastExport? :=
      y.advance_lastExport stimulus
    rw [hlast, hnone, Option.none_or]
  · have hpanel := y.advance_panel stimulus
    simp only [Session.fetched, hparams] at hpanel
    exact hpanel

end Exchange

end PanelExport
