import PanelExport.Proofs.Document.Sequences
import PanelExport.Proofs.Session.Steps

/-!
# Looking up a panel

What comes of a reply for a dashboard, whatever its parts are: the panel with the number that was
asked for, or one of two failures, as the reply holds no dashboard or its dashboard no such panel.
There is one exception, a value in the place of the panels that cannot be counted.

* `findPanel_eq_none_iff`, `among_of_findPanel`: what is found among panels and those inside them.
* `fetchPanel_of_invalid`, `fetchPanel_of_countless`, `fetchPanel_of_counted`: the cases of a
  lookup.
* `fetchPanel_typed`: what a lookup comes to, and when.
* `fetchPanel_countless`: a lookup that ends in another way.
-/

namespace PanelExport

open Document

/-! ## Panels inside panels -/

/-- An object is one of some panels, or one of those that one of them holds, and so on. -/
inductive Among (node : Fields) : List Document → Prop
  | here {panels : List Document} : .object node ∈ panels → Among node panels
  | inside {panels : List Document} {outer : Fields} :
      .object outer ∈ panels → Among node (innerPanels outer) → Among node panels

theorem not_among_of_no_objects {node : Fields} {panels : List Document}
    (h : ∀ d ∈ panels, ∀ fields, d ≠ .object fields) : ¬ Among node panels := by
  intro hnode
  cases hnode with
  | here hmem => exact h _ hmem _ rfl
  | inside hmem _ => exact h _ hmem _ rfl

theorem among_object_cons {node panel : Fields} {rest : List Document} :
    Among node (.object panel :: rest) ↔
      node = panel ∨ Among node (innerPanels panel) ∨ Among node rest := by
  constructor
  · intro h
    cases h with
    | here hmem =>
      rcases List.mem_cons.1 hmem with heq | hmem
      · exact .inl (Document.object.inj heq)
      · exact .inr (.inr (.here hmem))
    | inside hmem hinner =>
      rcases List.mem_cons.1 hmem with heq | hmem
      · cases heq
        exact .inr (.inl hinner)
      · exact .inr (.inr (.inside hmem hinner))
  · rintro (rfl | hinner | hrest)
    · exact .here (List.mem_cons_self ..)
    · exact .inside (List.mem_cons_self ..) hinner
    · cases hrest with
      | here hmem => exact .here (List.mem_cons_of_mem _ hmem)
      | inside hmem hinner => exact .inside (List.mem_cons_of_mem _ hmem) hinner

theorem among_cons_of_not_object {node : Fields} {d : Document} {rest : List Document}
    (hd : ∀ fields, d ≠ .object fields) : Among node (d :: rest) ↔ Among node rest := by
  constructor
  · intro h
    cases h with
    | here hmem => exact .here (List.mem_of_ne_of_mem (hd _).symm hmem)
    | inside hmem hinner => exact .inside (List.mem_of_ne_of_mem (hd _).symm hmem) hinner
  · intro h
    cases h with
    | here hmem => exact .here (List.mem_cons_of_mem _ hmem)
    | inside hmem hinner => exact .inside (List.mem_cons_of_mem _ hmem) hinner

theorem hasNumber_iff {id : Int} {node : Fields} :
    hasNumber id node = true ↔ node.lookup "id" = some (.int id) :=
  ⟨lookup_of_hasNumber, fun h => by simp [hasNumber, h]⟩

/-- What is found is one of the panels, or inside one. -/
theorem among_of_findPanel {id : Int} {panels : List Document} {node : Fields}
    (h : findPanel id panels = some node) : Among node panels := by
  induction panels using findPanel.induct id with
  | case1 => simp [findPanel_nil] at h
  | case2 panel rest hp =>
    rw [findPanel_cons, if_pos hp] at h
    exact among_object_cons.2 (.inl (Option.some.inj h).symm)
  | case3 panel rest hp inner outer =>
    rw [findPanel_cons, if_neg hp, Option.or_eq_some_iff] at h
    rcases h with h | ⟨-, h⟩
    · exact among_object_cons.2 (.inr (.inl (inner h)))
    · exact among_object_cons.2 (.inr (.inr (outer h)))
  | case4 d rest hd ih =>
    rw [findPanel] at h
    · exact (among_cons_of_not_object hd).2 (ih h)
    · exact hd

/-- Nothing is found only if none of the panels, nor of those inside them, has the number. -/
theorem findPanel_eq_none_iff {id : Int} {panels : List Document} :
    findPanel id panels = none ↔ ∀ node, Among node panels → ¬ hasNumber id node = true := by
  induction panels using findPanel.induct id with
  | case1 =>
    exact iff_of_true (findPanel_nil id) fun _ h =>
      absurd h (not_among_of_no_objects (List.forall_mem_nil _))
  | case2 panel rest hp =>
    rw [findPanel_cons, if_pos hp]
    exact iff_of_false (Option.some_ne_none panel) fun h =>
      h panel (among_object_cons.2 (.inl rfl)) hp
  | case3 panel rest hp inner outer =>
    rw [findPanel_cons, if_neg hp, Option.or_eq_none_iff, inner, outer]
    simp [among_object_cons, or_imp, forall_and, hp]
  | case4 d rest hd ih =>
    have hnext : findPanel id (d :: rest) = findPanel id rest := by
      rw [findPanel]
      exact hd
    simp only [hnext, ih, among_cons_of_not_object hd]

/-- Of a value that can be gone through only the items of a list are looked at. -/
theorem locatePanel_eq {id : Int} {panels : Document} (h : ¬ panels.Indivisible) :
    locatePanel id panels = .ok (findPanel id (panels.items?.getD [])) := by
  obtain ⟨items, hitems⟩ := exists_elements_iff.2 h
  have hfound : findPanel id items = findPanel id (panels.items?.getD []) := by
    rcases items_of_elements hitems with heq | ⟨hnone, htexts⟩
    · rw [heq, Option.getD_some]
    · rw [hnone, Option.getD_none, findPanel_nil, findPanel_eq_none_iff]
      refine fun node hnode => absurd hnode (not_among_of_no_objects fun d hd fields => ?_)
      obtain ⟨s, rfl⟩ := htexts d hd
      exact nofun
  rw [locatePanel, hitems, ← hfound]
  rfl

/-! ## Replies -/

/-- A reply holds a dashboard. -/
def HoldsDashboard (reply : Document) (dashboard : Fields) : Prop :=
  reply.field? "dashboard" = some (.object dashboard)

/-- In the place of the panels of a dashboard there is a value that cannot be counted. -/
def CountlessPanels (dashboard : Fields) (v : Document) : Prop :=
  dashboard.lookup "panels" = some v ∧ v.Indivisible

/-- The panels that a dashboard lists. -/
def panelsOf (dashboard : Fields) : List Document :=
  ((dashboard.lookup "panels").bind items?).getD []

/-- A panel with a number is among those that a dashboard lists. -/
def HasPanel (id : Int) (dashboard : Fields) : Prop :=
  ∃ node, Among node (panelsOf dashboard) ∧ node.lookup "id" = some (.int id)

/-- A panel has the number and the dashboard that were asked for, and is among those listed. -/
structure Fits (uid : String) (id : Int) (dashboard : Fields) (panel : Panel) : Prop where
  id_eq : panel.id = .int id
  uid_eq : panel.dashboardUid = uid
  among : Among panel.node (panelsOf dashboard)
  number : panel.node.lookup "id" = some (.int id)

section Steps

variable {uid : String} {id : Int} {reply : Document} {dashboard : Fields}

theorem holdsDashboard_iff :
    HoldsDashboard reply dashboard ↔ reply.field "dashboard" = .object dashboard := by
  unfold HoldsDashboard field
  cases reply.field? "dashboard" <;> simp

theorem countlessPanels_iff {v : Document} :
    CountlessPanels dashboard v ↔
      (dashboard.lookup "panels").getD .null = v ∧ v.Indivisible := by
  unfold CountlessPanels
  refine and_congr_left fun hv => ?_
  cases dashboard.lookup "panels" with
  | none => exact iff_of_false nofun fun h => by subst h; cases hv
  | some u => simp

theorem fetchPanel_of_invalid (h : ∀ dashboard, ¬ HoldsDashboard reply dashboard) :
    (fetchPanel uid id (.ok reply)).outcome = .error (.failure (.dashboardInvalid uid)) := by
  have hnone : dashboardIn uid (.ok reply) = .error (.failure (.dashboardInvalid uid)) := by
    simp only [dashboardIn]
    split
    · rename_i dashboard hdashboard
      exact absurd (holdsDashboard_iff.2 hdashboard) (h dashboard)
    · rfl
  rw [fetchPanel, Logged.outcome_bind, hnone]
  rfl

/-- In a dashboard the panels are first counted, and then gone through. -/
theorem fetchPanel_of_holds (h : HoldsDashboard reply dashboard) :
    (fetchPanel uid id (.ok reply)).outcome = (do
      let _ ← (fetchedEvent uid dashboard).mapError RunFault.shape
      let node? ← (locatePanel id ((dashboard.lookup "panels").getD .null)).mapError .shape
      (panelIn uid id node?).outcome) := by
  have hdashboard : dashboardIn uid (.ok reply) = .ok dashboard :=
    dashboardIn_ok uid reply dashboard (holdsDashboard_iff.1 h)
  simp only [fetchPanel, Logged.outcome_bind, hdashboard]
  rfl

theorem fetchPanel_of_countless {v : Document} (h : HoldsDashboard reply dashboard)
    (hv : CountlessPanels dashboard v) :
    (fetchPanel uid id (.ok reply)).outcome = .error (.shape (.noLength v)) := by
  obtain ⟨rfl, hindivisible⟩ := countlessPanels_iff.1 hv
  rw [fetchPanel_of_holds h, fetchedEvent, count_eq_error_iff.2 ⟨hindivisible, rfl⟩]
  rfl

theorem fetchPanel_of_counted (h : HoldsDashboard reply dashboard)
    (hcounted : ∀ v, ¬ CountlessPanels dashboard v) :
    (fetchPanel uid id (.ok reply)).outcome =
      (panelIn uid id (findPanel id (panelsOf dashboard))).outcome := by
  have hdivisible : ¬ ((dashboard.lookup "panels").getD .null).Indivisible :=
    fun hv => hcounted _ (countlessPanels_iff.2 ⟨rfl, hv⟩)
  have hpanels : panelsOf dashboard = ((dashboard.lookup "panels").getD .null).items?.getD [] := by
    unfold panelsOf
    cases dashboard.lookup "panels" <;> rfl
  obtain ⟨n, hn⟩ := exists_count_iff.2 hdivisible
  rw [fetchPanel_of_holds h, fetchedEvent, hn, locatePanel_eq hdivisible, hpanels]
  rfl

end Steps

theorem exists_ofNode {node : Fields} {number : Document} (h : node.lookup "id" = some number)
    (uid : String) : ∃ panel, Panel.ofNode node uid = .ok panel ∧ panel.id = number ∧
      panel.dashboardUid = uid ∧ panel.node = node := by
  unfold Panel.ofNode
  rw [h]
  exact ⟨_, rfl, rfl, rfl, rfl⟩

/-- What is found among the panels of a dashboard fits, and otherwise there is no such panel. -/
theorem panelIn_findPanel (uid : String) (id : Int) (dashboard : Fields) :
    let outcome := (panelIn uid id (findPanel id (panelsOf dashboard))).outcome
    (outcome = .error (.failure (.panelNotFound uid id)) ∧ ¬ HasPanel id dashboard) ∨
      ∃ panel, outcome = .ok panel ∧ Fits uid id dashboard panel := by
  cases hfound : findPanel id (panelsOf dashboard) with
  | none =>
    refine .inl ⟨panelIn_none uid id, ?_⟩
    rintro ⟨node, hnode, hnumber⟩
    exact findPanel_eq_none_iff.1 hfound node hnode (hasNumber_iff.2 hnumber)
  | some node =>
    have hnumber := hasNumber_iff.1 (hasNumber_of_findPanel hfound)
    obtain ⟨panel, hpanel, hid, huid, rfl⟩ := exists_ofNode hnumber uid
    refine .inr ⟨panel, ?_, hid, huid, among_of_findPanel hfound, hnumber⟩
    rw [panelIn, hpanel]
    rfl

/-- A request that fails is a dashboard that is not found. A reply without a dashboard, and none
else, is invalid. In a dashboard, whatever its panels are, the panel with the number is found if one
is listed, and fails by its name if not, unless a value stands in the place of the panels that
cannot be counted. -/
theorem fetchPanel_typed (uid : String) (id : Int) :
    (∀ f, (fetchPanel uid id (.error (.failed f))).outcome =
      .error (.failure (.dashboardNotFound uid f.message))) ∧
    ∀ reply,
      let outcome := (fetchPanel uid id (.ok reply)).outcome
      (outcome = .error (.failure (.dashboardInvalid uid)) ↔
        ∀ dashboard, ¬ HoldsDashboard reply dashboard) ∧
      ∀ dashboard, HoldsDashboard reply dashboard →
        (∀ v, CountlessPanels dashboard v → outcome = .error (.shape (.noLength v))) ∧
        ((∀ v, ¬ CountlessPanels dashboard v) →
          (outcome = .error (.failure (.panelNotFound uid id)) ∧ ¬ HasPanel id dashboard) ∨
            ∃ panel, outcome = .ok panel ∧ Fits uid id dashboard panel) := by
  refine ⟨fun f => rfl, fun reply => ?_⟩
  intro outcome
  have hcounted : ∀ dashboard, HoldsDashboard reply dashboard →
      (∀ v, ¬ CountlessPanels dashboard v) →
      (outcome = .error (.failure (.panelNotFound uid id)) ∧ ¬ HasPanel id dashboard) ∨
        ∃ panel, outcome = .ok panel ∧ Fits uid id dashboard panel := by
    intro dashboard hholds hnone
    have houtcome : outcome = _ := fetchPanel_of_counted hholds hnone
    rw [houtcome]
    exact panelIn_findPanel uid id dashboard
  refine ⟨⟨fun hinvalid dashboard hholds => ?_, fetchPanel_of_invalid⟩, fun dashboard hholds =>
    ⟨fun v => fetchPanel_of_countless hholds, hcounted dashboard hholds⟩⟩
  by_cases hcountless : ∃ v, CountlessPanels dashboard v
  · obtain ⟨v, hv⟩ := hcountless
    have hshape : outcome = _ := fetchPanel_of_countless hholds hv
    cases hinvalid.symm.trans hshape
  · rcases hcounted dashboard hholds (not_exists.1 hcountless) with ⟨h, -⟩ | ⟨panel, h, -⟩
    · cases hinvalid.symm.trans h
    · cases hinvalid.symm.trans h

/-- A reply with a number in the place of the panels. -/
def countlessReply : Document := .object [("dashboard", .object [("panels", .int 5)])]

/-- A lookup that comes neither to a panel nor to a failure. -/
theorem fetchPanel_countless :
    ¬ ((∃ panel, (fetchPanel "board" 1 (.ok countlessReply)).outcome = .ok panel) ∨
      ∃ failure, (fetchPanel "board" 1 (.ok countlessReply)).outcome =
        .error (.failure failure)) := by
  have hcountless : CountlessPanels [("panels", .int 5)] (.int 5) := ⟨rfl, .int (by decide)⟩
  have hshape : (fetchPanel "board" 1 (.ok countlessReply)).outcome =
      .error (.shape (.noLength (.int 5))) := fetchPanel_of_countless rfl hcountless
  rw [hshape]
  rintro (⟨_, h⟩ | ⟨_, h⟩) <;> cases h

end PanelExport
