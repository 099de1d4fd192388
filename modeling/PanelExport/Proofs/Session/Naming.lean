import Mathlib.Data.List.Infix
import PanelExport.Proofs.Session.Contents
import PanelExport.Proofs.Session.Flight

/-!
# The panel behind an export

An export asks for the queries of the panel that its session holds when the batch is sent, and names
its file after the panel that the session holds when the results arrive. A load may replace the
panel in between, as loads do not wait for exports. If none does, both are the same panel.

* `Turn.sends`: a batch is that of the panel that the session holds.
* `Sender`, `run_sender`: the panel for which results are awaited stays until a load replaces it.
* `export_describes_panel`: the two panels behind an export are one unless a load came between.
* `export_of_two_panels`: an export whose file is named after another panel than it asked for.
-/

namespace PanelExport

/-- An export of the panel with these options sends this batch. -/
def Panel.Sends (panel : Panel) (params : ExportParams) (settings : Settings)
    (options : ExportOptions) (batch : Batch) : Prop :=
  ∃ uid,
    (nonempty? options.datasourceUid?).or (resolveDatasource panel settings.datasourceUid?) =
      some uid ∧
    (Batch.build (panel.queries.map (·.expr)) uid params.timeRange (some settings.intervalMs)
      (some settings.maxDataPoints)).outcome = .ok batch

/-- A batch asks for the expressions that are not blank. -/
theorem Batch.exprs_of_build {exprs : List String} {uid : String} {range : TimeRange}
    {intervalMs? maxDataPoints? : Option Int} {batch : Batch}
    (h : (build exprs uid range intervalMs? maxDataPoints?).outcome = .ok batch) :
    batch.queries.map (·.expr) = exprs.filter (isBlankText · == false) := by
  have hids : ∀ blank, (idsOf blank exprs).map (·.2) = exprs.filter (isBlankText · == blank) := by
    intro blank
    have hexprs : exprs = (exprs.mapIdx fun index expr => (refId index, expr)).map (·.2) := by
      refine List.ext_getElem? fun i => ?_
      simp [Function.comp_def]
    conv_rhs => rw [hexprs, List.filter_map]
    rfl
  unfold build at h
  split at h
  · cases h
  · cases h
    rw [← hids, ofExprs, List.map_map]
    rfl

/-- No load among these effects came back with a panel. -/
def NoneLoaded (effects : List Effect) : Prop :=
  ∀ effect ∈ effects, ∀ panel, effect.outcome? ≠ some (.loaded panel)

namespace Exchange

variable {x : Exchange} {stimulus : Stimulus} {number : Nat} {step : Step}

/-- A call that starts to wait for results has sent the batch of the panel that the session holds. -/
theorem Turn.sends {params : ExportParams} (h : x.Turn stimulus number step)
    (hp : x.session.params = params) (hc : x.session.Consistent params) {options : ExportOptions}
    {batch : Batch} (hw : step.next = .waits (.results options batch)) :
    ∃ panel, step.session.panel? = some panel ∧
      panel.Sends params x.session.settings options batch := by
  cases h with
  | load => cases hw
  | «export» options' =>
    have hstep := x.session.startExport_started options'
    generalize x.session.startExport options' = step at hstep hw
    cases hstep with
    | refused _ => cases hw
    | asked _ _ _ => cases hw
    | @sent panel _ _ _ held sent =>
      cases sent with
      | ended _ => cases hw
      | @waits _ uid _ datasource built =>
        cases hw
        have hqueries : x.session.queries = panel.queries := by
          rcases hc with ⟨hnone, -⟩ | ⟨_, hpanel, hqueries, -⟩
          · rw [hnone] at held
            cases held
          · obtain rfl := Option.some.inj (hpanel.symm.trans held)
            exact hqueries
        refine ⟨panel, held, uid, datasource, ?_⟩
        rw [← hqueries, ← hp]
        exact built
  | @reply _ w reply waits =>
    obtain ⟨_, _, rfl, hwaits⟩ := Session.resume_waits hw
    cases hwaits
    have hstep := x.session.resumePanel_resumed options reply
    simp only [Session.resume] at hw ⊢
    generalize x.session.resumePanel options reply = step at hstep hw
    cases hstep with
    | ended _ => cases hw
    | @sent panel _ _ _ sent =>
      cases sent with
      | ended _ => cases hw
      | @waits _ uid _ datasource built =>
        cases hw
        refine ⟨panel, rfl, uid, datasource, ?_⟩
        rw [← hp]
        exact built

/-- While an export awaits its results, only the return of a load replaces the panel. -/
theorem Turn.keeps_panel (h : x.Turn stimulus number step) (hx : x.Exclusive) {n : Nat}
    (hn : n ≠ number) (hawaits : x.AwaitsResults n)
    (hload : ∀ panel, step.next ≠ .ends (.loaded panel)) :
    step.session.panel? = x.session.panel? := by
  cases h.changed with
  | kept session _ => rw [session]
  | loaded _ _ _ _ ends => exact absurd ends (hload _)
  | stored _ waits _ _ _ =>
    have hexports : x.Exports number := ⟨_, waits, trivial⟩
    exact absurd (hx.unique n number hawaits.exports hexports) hn
  | exported _ _ session _ => rw [session]

theorem outcome?_effect {outcome : Outcome} :
    (step.effect number).outcome? = some outcome ↔ step.next = .ends outcome := by
  cases hnext : step.next <;> simp [Step.effect, hnext]

/-- The call with a number sent a batch in the last step of a course, for a panel that the session
held then. -/
structure SentLast (x : Exchange) (course : List Stimulus) (number : Nat) (batch : Batch)
    (panel : Panel) : Prop where
  sends : ∃ effect, (x.run course).2.getLast? = some effect ∧ effect.call? = some number ∧
    effect.sent? = some (.results batch)
  held : (x.run course).1.session.panel? = some panel

/-- The batch of a call was sent at some point of a course, for the panel that the session held
then, and holds still unless a load came back with one. -/
def Sender (x : Exchange) (course : List Stimulus) (number : Nat) (options : ExportOptions)
    (batch : Batch) : Prop :=
  ∃ sent between panel, course = sent ++ between ∧ x.SentLast sent number batch panel ∧
    panel.Sends x.session.params x.session.settings options batch ∧
    (NoneLoaded ((x.run sent).1.run between).2 → (x.run course).1.session.panel? = some panel)

variable {course : List Stimulus} {options : ExportOptions} {batch : Batch}

/-- One more stimulus keeps the sender if only the return of a load makes it replace the panel. -/
theorem Sender.concat {n : Nat} (h : x.Sender course n options batch)
    (hkeeps : (∀ panel, ((x.run course).1.advance stimulus).2.outcome? ≠ some (.loaded panel)) →
      ((x.run course).1.advance stimulus).1.session.panel? = (x.run course).1.session.panel?) :
    x.Sender (course ++ [stimulus]) n options batch := by
  obtain ⟨sent, between, panel, rfl, hsent, hbatch, hpanel⟩ := h
  refine ⟨sent, between ++ [stimulus], panel, by simp, hsent, hbatch, fun hnone => ?_⟩
  simp only [run_append x sent between] at hkeeps hpanel
  rw [run_concat] at hnone
  rw [run_concat, run_append]
  refine (hkeeps fun panel => ?_).trans (hpanel fun effect he => ?_)
  · exact hnone _ (List.mem_append_right _ (List.mem_singleton_self _)) panel
  · exact hnone effect (List.mem_append_left _ he)

/-- A step after which its call awaits results is the one that sent the batch. -/
theorem Turn.sender (h : (x.run course).1.Turn stimulus number step)
    (hc : (x.run course).1.session.Consistent x.session.params)
    (hw : step.next = .waits (.results options batch)) :
    x.Sender (course ++ [stimulus]) number options batch := by
  have hs := h.stepped
  obtain ⟨hparams, hsettings⟩ := run_params x course
  obtain ⟨panel, hheld, hsends⟩ := h.sends hparams hc hw
  have hafter : (x.run (course ++ [stimulus])).1.session.panel? = some panel := by
    rw [run_concat, hs.session, hheld]
  refine ⟨course ++ [stimulus], [], panel, by simp, ⟨⟨step.effect number, ?_, ?_, ?_⟩, hafter⟩,
    hsettings ▸ hsends, fun _ => hafter⟩
  · rw [run_concat, ← hs.effect]
    simp
  · simp [Step.effect, hw]
  · simp [Step.effect, hw, Session.request]

/-- A call that awaits results has a sender. -/
theorem run_sender (params : ExportParams) (settings : Settings) (files : FileTree)
    (course : List Stimulus) {n : Nat}
    (h : ((create params settings files).run course).1.calls[n]? =
      some (.waits (.results options batch))) :
    (create params settings files).Sender course n options batch := by
  generalize hx : create params settings files = x at h ⊢
  induction course using List.reverseRecOn with
  | nil =>
    subst hx
    simp [create, run] at h
  | append_singleton course stimulus ih =>
    have hexclusive : (x.run course).1.Exclusive :=
      run_exclusive (hx ▸ create_exclusive params settings files) course
    have hconsistent : (x.run course).1.session.Consistent x.session.params := by
      subst hx
      exact run_consistent params settings files course
    rw [run_concat] at h
    rcases (x.run course).1.turn_or_quiet stimulus with ⟨number, step, hturn⟩ | hquiet | hquiet
    · have hs := hturn.stepped
      by_cases hn : n = number
      · subst hn
        refine hturn.sender hconsistent ?_
        rw [hs.call] at h
        unfold Step.call at h
        split at h <;> simp_all
      · rw [hs.others n hn] at h
        refine (ih h).concat fun hload => ?_
        rw [hs.session]
        refine hturn.keeps_panel hexclusive hn ⟨_, _, h⟩ fun panel hends => hload panel ?_
        rw [hs.effect]
        exact outcome?_effect.2 hends
    all_goals
      rw [hquiet] at h
      exact (ih h).concat fun _ => by simp only [hquiet, Session.close]

/-- A session that holds a panel goes on holding one. -/
theorem run_holds (h : ∃ panel, x.session.panel? = some panel) (course : List Stimulus) :
    ∃ panel, (x.run course).1.session.panel? = some panel := by
  induction course using List.reverseRecOn with
  | nil => exact h
  | append_singleton course stimulus ih =>
    rw [run_concat]
    rcases (x.run course).1.advance_panel stimulus with
      ⟨hpanel, -⟩ | ⟨_, _, _, panel, -, -, -, -, h, -⟩
    · exact hpanel ▸ ih
    · exact ⟨panel, h⟩

theorem filename_of_held {s : Session} {panel : Panel} (h : s.panel? = some panel) :
    s.filename = panel.exportName := by
  simp [Session.filename, h]

/-- A complete export awaited the results of its batch, and the step that their reply made it take
completed it. -/
theorem resumed_of_exported {result : Export} (h : (x.advance stimulus).2.exported? = some result) :
    ∃ (number : Nat) (options : ExportOptions) (reply : Except CallFault Document),
      (x.advance stimulus).2.call? = some number ∧
      x.calls[number]? = some (.waits (.results options result.batch)) ∧
      result.filename = x.session.filename ∧
      (x.session.resumeResults options result.batch reply).next = .ends (.exported result) ∧
      (x.advance stimulus).1.session =
        (x.session.resumeResults options result.batch reply).session := by
  rcases x.turn_or_quiet stimulus with ⟨number, step, hturn⟩ | hquiet | hquiet
  · rw [hturn.stepped.effect] at h ⊢
    rw [hturn.stepped.session]
    cases hturn.changed with
    | kept _ dropped => rw [Step.exported?_of_dropped dropped] at h; cases h
    | loaded _ _ _ _ ends => simp [Step.effect, ends, Effect.exported?] at h
    | stored _ _ _ _ dropped => rw [Step.exported?_of_dropped dropped] at h; cases h
    | @exported options _ _ _ waits filename _ ends =>
      simp only [Step.effect, ends, Effect.exported?, Option.some.injEq] at h ⊢
      subst h
      cases hturn with
      | load => simp at waits
      | «export» _ => simp at waits
      | reply reply hwaits =>
        cases hwaits.symm.trans waits
        exact ⟨number, options, reply, rfl, waits, filename, ends, rfl⟩
  all_goals
    rw [hquiet] at h
    cases h

/-- A complete export awaited the results of its batch, and its file has the name that the session
gave it when they arrived. -/
theorem exported_of_advance {result : Export} (h : (x.advance stimulus).2.exported? = some result) :
    ∃ number options, (x.advance stimulus).2.call? = some number ∧
      x.calls[number]? = some (.waits (.results options result.batch)) ∧
      result.filename = x.session.filename := by
  obtain ⟨number, options, _, hcall, hwaits, hname, -⟩ := resumed_of_exported h
  exact ⟨number, options, hcall, hwaits, hname⟩

/-- Where a complete export comes from: its call sent the batch at one point of the course, for the
panel that the session held then, and got the results at a later point, when the session held the
panel that names the file. -/
structure Origin (x : Exchange) (course : List Stimulus) (effect : Effect) (result : Export) where
  /-- The course up to the step that sent the batch. -/
  sent : List Stimulus
  /-- What happened until the results arrived. -/
  between : List Stimulus
  reply : Stimulus
  after : List Stimulus
  course_eq : course = sent ++ between ++ reply :: after
  effect_eq : effect = ((x.run (sent ++ between)).1.advance reply).2
  number : Nat
  call_eq : effect.call? = some number
  /-- The panel whose queries were sent. -/
  asked : Panel
  sentLast : x.SentLast sent number result.batch asked
  options : ExportOptions
  sends : asked.Sends x.session.params x.session.settings options result.batch
  /-- The panel that the session held when the results arrived. -/
  named : Panel
  held : (x.run (sent ++ between)).1.session.panel? = some named
  filename_eq : result.filename = named.exportName

/-- What was shown while the export awaited its results. -/
def Origin.meanwhile {course : List Stimulus} {effect : Effect} {result : Export}
    (o : x.Origin course effect result) : List Effect :=
  ((x.run o.sent).1.run o.between).2

/-- Every complete export has an origin. If no load came back with a panel while it awaited its
results, its file is named after the panel whose queries it asked for. -/
theorem export_describes_panel (params : ExportParams) (settings : Settings) (files : FileTree)
    (course : List Stimulus) {effect : Effect} {result : Export}
    (hmem : effect ∈ ((create params settings files).run course).2)
    (hresult : effect.exported? = some result) :
    ∃ o : (create params settings files).Origin course effect result,
      NoneLoaded o.meanwhile → o.asked = o.named := by
  obtain ⟨before, reply, after, rfl, rfl⟩ := mem_effects hmem
  obtain ⟨number, options, hnumber, hwaits, hname⟩ := exported_of_advance hresult
  obtain ⟨sent, between, asked, rfl, hsent, hbatch, hquiet⟩ :=
    run_sender params settings files before hwaits
  obtain ⟨named, hnamed⟩ :
      ∃ named, ((create params settings files).run (sent ++ between)).1.session.panel? =
        some named := by
    rw [run_append]
    exact run_holds ⟨asked, hsent.held⟩ between
  refine ⟨{ sent, between, reply, after, number, asked, options, named
            course_eq := rfl
            effect_eq := rfl
            call_eq := hnumber
            sentLast := hsent
            sends := hbatch
            held := hnamed
            filename_eq := hname.trans (filename_of_held hnamed) }, fun hnone => ?_⟩
  exact Option.some.inj ((hquiet hnone).symm.trans hnamed)

/-! ## Loads in between -/

/-- The reply with a dashboard of one panel, which has this title and asks for this expression. -/
def dashboardReply (title expr : String) : Except CallFault Document :=
  .ok (.object [("dashboard", .object [("panels", .list [.object
    [("id", .int 1), ("title", .text title), ("datasource", .text "ds"),
      ("targets", .list [.object [("expr", .text expr)]])]])])])

/-- A new session for the panel of such a dashboard. -/
def onePanel : Exchange :=
  create ⟨"board", 1, ⟨"1", "2"⟩⟩ .standard .empty

/-- The panel is loaded and an export sends its batch. Another load starts and gets this reply, and
then the results of the export arrive. -/
def exportDuringLoad (reply : Except CallFault Document) : List Stimulus :=
  [.load, .reply 0 (dashboardReply "First" "up"), .export ⟨none, none, false⟩, .load,
    .reply 2 reply, .reply 1 (.ok (.object []))]

theorem exists_exported {x : Exchange} {course : List Stimulus}
    (h : ((x.run course).2.filterMap Effect.exported?).isEmpty = false) :
    ∃ effect ∈ (x.run course).2, ∃ result, effect.exported? = some result := by
  obtain ⟨result, h⟩ := List.exists_mem_of_ne_nil _ (List.isEmpty_eq_false_iff.1 h)
  obtain ⟨effect, hmem, hresult⟩ := List.mem_filterMap.1 h
  exact ⟨effect, hmem, result, hresult⟩

theorem export_describes_panel_failedLoad :
    ∃ effect result, effect ∈ (onePanel.run (exportDuringLoad (.error .tooDeep))).2 ∧
      effect.exported? = some result ∧
      ∃ o : onePanel.Origin (exportDuringLoad (.error .tooDeep)) effect result,
        NoneLoaded o.meanwhile → o.asked = o.named := by
  obtain ⟨effect, hmem, result, hresult⟩ :
      ∃ effect ∈ (onePanel.run (exportDuringLoad (.error .tooDeep))).2,
        ∃ result, effect.exported? = some result :=
    exists_exported (by decide +kernel)
  exact ⟨effect, result, hmem, hresult, export_describes_panel _ _ _ _ hmem hresult⟩

/-- An export is named after a panel that the session held in the course, and asked for its
queries. -/
def OfOnePanel (x : Exchange) (course : List Stimulus) (result : Export) : Prop :=
  ∃ before after panel options, course = before ++ after ∧
    (x.run before).1.session.panel? = some panel ∧ result.filename = panel.exportName ∧
    panel.Sends x.session.params x.session.settings options result.batch

/-- An export that is named after the panel of a later load than the one that it asked for. -/
theorem export_of_two_panels :
    ∃ effect result, effect ∈ (onePanel.run (exportDuringLoad (dashboardReply "Second" "down"))).2 ∧
      effect.exported? = some result ∧ result.filename = "Second.prom" ∧
      result.batch.queries.map (·.expr) = ["up"] ∧
      ¬ onePanel.OfOnePanel (exportDuringLoad (dashboardReply "Second" "down")) result := by
  generalize hcourse : exportDuringLoad (dashboardReply "Second" "down") = course
  have hexports : ((onePanel.run course).2.filterMap Effect.exported?).map
      (fun result => (result.filename, result.batch.queries.map (·.expr))) =
        [("Second.prom", ["up"])] := by
    rw [← hcourse]
    decide +kernel
  have hheld : ∀ before ∈ course.inits, ∀ panel ∈ (onePanel.run before).1.session.panel?,
      panel.exportName = "Second.prom" →
        (panel.queries.map (·.expr)).filter (isBlankText · == false) ≠ ["up"] := by
    rw [← hcourse]
    decide +kernel
  obtain ⟨result, hmem, hresult⟩ := List.mem_map.1 (hexports ▸ List.mem_singleton_self _)
  obtain ⟨hname, hexprs⟩ := Prod.mk.inj hresult
  obtain ⟨effect, heffect, hexported⟩ := List.mem_filterMap.1 hmem
  refine ⟨effect, result, heffect, hexported, hname, hexprs, ?_⟩
  rintro ⟨before, after, panel, options, rfl, hpanel, hfile, uid, -, hbuilt⟩
  refine hheld before ((List.mem_inits _ _).2 (List.prefix_append _ _)) panel hpanel
    (hfile.symm.trans hname) ?_
  rw [← Batch.exprs_of_build hbuilt, hexprs]

end Exchange

end PanelExport
