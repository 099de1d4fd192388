import PanelExport.Proofs.Session.Naming

/-!
# The datasource of a batch

A panel and its targets may refer to datasources. The batch goes to the first reference that names
one: a variable does not, and neither does the placeholder of a panel whose targets name their own.
Without any, the default decides. There is one exception, a target that refers to the placeholder.

* `DatasourceRef.offers_iff`, `panelDatasource?_eq_some_iff`: which references are taken.
* `resolveDatasource_of_offersMixed`, `resolvesTo_of_not_offersMixed`: the exception and the rule.
* `Batch.datasourceUid_of_build`: all queries of a batch ask the same datasource.
* `resolveDatasource_settles`: where a batch goes, and that it is sent nowhere else.
* `resolveDatasource_mixedTarget`: a batch that goes to the placeholder.
-/

namespace PanelExport

/-! ## References -/

theorem isVariable_mixedDatasource : isVariable mixedDatasource.toList = false := by
  decide +kernel

namespace DatasourceRef

/-- A reference has an id that is no variable. -/
structure Offers (r : DatasourceRef) (uid : String) : Prop where
  uid_eq : r.uid? = some uid
  nonempty : uid ≠ ""
  known : r.isTemplate = false

/-- A reference names a datasource. -/
structure Names (r : DatasourceRef) (uid : String) : Prop extends r.Offers uid where
  single : uid ≠ mixedDatasource

theorem offers_iff {r : DatasourceRef} {uid : String} :
    nonempty? r.resolved? = some uid ↔ r.Offers uid := by
  simp only [nonempty?, resolved?, Option.filter_eq_some_iff, decide_eq_true_eq]
  constructor
  · rintro ⟨h, hne⟩
    split at h
    · cases h
    · rename_i hknown
      exact ⟨h, hne, Bool.of_not_eq_true hknown⟩
  · rintro ⟨huid, hne, hknown⟩
    exact ⟨by rw [hknown, ← huid]; rfl, hne⟩

theorem Offers.not_isVariable {r : DatasourceRef} {uid : String} (h : r.Offers uid) :
    isVariable uid.toList = false := by
  have hknown := h.known
  rwa [isTemplate, h.uid_eq] at hknown

end DatasourceRef

namespace Panel

/-- The references of the targets that are objects, in order. -/
def targetRefs (p : Panel) : List DatasourceRef :=
  p.targets.filterMap fun target => (target.field? "datasource").bind DatasourceRef.ofDocument?

/-- The reference of the panel, and behind it those of its targets. -/
def refs (p : Panel) : List DatasourceRef :=
  p.datasource?.toList ++ p.targetRefs

/-- None of some references names a datasource. -/
def NoneNamed (refs : List DatasourceRef) : Prop :=
  ∀ r ∈ refs, ∀ uid, ¬ r.Names uid

/-- Where a batch is to go, if anywhere: to the datasource that the first reference names that names
one, and without such a reference to the default. -/
inductive ResolvesTo (p : Panel) (default? : Option String) : Option String → Prop
  | reference {before after : List DatasourceRef} {r : DatasourceRef} {uid : String}
      (refs : p.refs = before ++ r :: after) (first : NoneNamed before) (names : r.Names uid) :
      p.ResolvesTo default? (some uid)
  | default {uid : String} (unnamed : NoneNamed p.refs) (given : default? = some uid)
      (nonempty : uid ≠ "") : p.ResolvesTo default? (some uid)
  | none (unnamed : NoneNamed p.refs) (missing : default? = none ∨ default? = some "") :
      p.ResolvesTo default? none

/-- A target refers to the placeholder, and no reference before it names a datasource. -/
def OffersMixed (p : Panel) : Prop :=
  ∃ before r after, p.targetRefs = before ++ r :: after ∧ r.uid? = some mixedDatasource ∧
    NoneNamed (p.datasource?.toList ++ before)

end Panel

open DatasourceRef Panel

/-! ## The choice -/

theorem panelDatasource?_eq_some_iff {p : Panel} {uid : String} :
    panelDatasource? p = some uid ↔ ∃ r, p.datasource? = some r ∧ r.Names uid := by
  unfold panelDatasource?
  cases p.datasource? with
  | none => exact iff_of_false (by simp [nonempty?]) (by simp)
  | some r =>
    simp only [Option.filter_eq_some_iff, Option.bind_some, offers_iff, decide_eq_true_eq,
      Option.some.injEq, exists_eq_left']
    exact ⟨fun h => ⟨h.1, h.2⟩, fun h => ⟨h.toOffers, h.single⟩⟩

theorem panelDatasource?_eq_none_iff {p : Panel} :
    panelDatasource? p = none ↔ NoneNamed p.datasource?.toList := by
  rw [Option.eq_none_iff_forall_ne_some]
  simp only [ne_eq, panelDatasource?_eq_some_iff]
  constructor
  · intro h r hr uid hnames
    exact h uid ⟨r, Option.mem_toList.1 hr, hnames⟩
  · rintro h uid ⟨r, hr, hnames⟩
    exact h r (Option.mem_toList.2 hr) uid hnames

theorem findSome?_targetDatasource? (p : Panel) :
    p.targets.findSome? targetDatasource? =
      p.targetRefs.findSome? fun r => nonempty? r.resolved? := by
  unfold targetRefs
  induction p.targets with
  | nil => rfl
  | cons target targets ih =>
    have htarget : targetDatasource? target =
        ((target.field? "datasource").bind ofDocument?).bind fun r => nonempty? r.resolved? := by
      cases target with
      | object fields =>
        rw [targetDatasource?, Document.field?_object]
        cases (fields.lookup "datasource").bind ofDocument? <;> rfl
      | _ => rfl
    rw [List.findSome?_cons, List.filterMap_cons, htarget, ih]
    cases (target.field? "datasource").bind ofDocument? <;> rfl

theorem noneNamed_append {before after : List DatasourceRef} :
    NoneNamed (before ++ after) ↔ NoneNamed before ∧ NoneNamed after := by
  simp only [NoneNamed, List.mem_append, or_imp, forall_and]

theorem noneNamed_of_forall {refs : List DatasourceRef}
    (h : ∀ r ∈ refs, nonempty? r.resolved? = none) : NoneNamed refs := by
  intro r hr uid hnames
  have hnothing := h r hr
  rw [offers_iff.2 hnames.toOffers] at hnothing
  cases hnothing

/-- Among references that name nothing, the first that offers an id offers the placeholder. -/
theorem findSome?_of_mixed {refs : List DatasourceRef} {r : DatasourceRef} (hr : r ∈ refs)
    (hmixed : r.uid? = some mixedDatasource) (h : NoneNamed refs) :
    refs.findSome? (fun r => nonempty? r.resolved?) = some mixedDatasource := by
  have hknown : r.isTemplate = false := by
    rw [isTemplate, hmixed]
    exact isVariable_mixedDatasource
  have hoffers : r.Offers mixedDatasource := ⟨hmixed, by decide +kernel, hknown⟩
  cases hfound : refs.findSome? fun r => nonempty? r.resolved? with
  | none =>
    have hnothing := List.findSome?_eq_none_iff.1 hfound r hr
    rw [offers_iff.2 hoffers] at hnothing
    cases hnothing
  | some uid =>
    obtain ⟨other, hother, huid⟩ := List.exists_of_findSome?_eq_some hfound
    by_cases hsingle : uid = mixedDatasource
    · rw [hsingle]
    · exact absurd ⟨offers_iff.1 huid, hsingle⟩ (h other hother uid)

theorem resolveDatasource_of_offersMixed {p : Panel} (h : p.OffersMixed)
    (default? : Option String) : resolveDatasource p default? = some mixedDatasource := by
  obtain ⟨before, r, after, hrefs, hmixed, hnone⟩ := h
  obtain ⟨hpanel, hbefore⟩ := noneNamed_append.1 hnone
  have hfirst : NoneNamed (before ++ [r]) := by
    refine noneNamed_append.2 ⟨hbefore, ?_⟩
    rintro _ (_ | ⟨_, ⟨⟩⟩) uid hnames
    exact hnames.single (Option.some.inj (hnames.uid_eq.symm.trans hmixed))
  rw [resolveDatasource, panelDatasource?_eq_none_iff.2 hpanel, Option.none_or,
    findSome?_targetDatasource?, hrefs, List.append_cons, List.findSome?_append,
    findSome?_of_mixed (by simp) hmixed hfirst]
  rfl

theorem resolvesTo_of_not_offersMixed {p : Panel} (h : ¬ p.OffersMixed)
    (default? : Option String) : p.ResolvesTo default? (resolveDatasource p default?) := by
  unfold resolveDatasource
  rw [findSome?_targetDatasource?]
  cases hpanel : panelDatasource? p with
  | some uid =>
    obtain ⟨r, hr, hnames⟩ := panelDatasource?_eq_some_iff.1 hpanel
    have hrefs : p.refs = [] ++ r :: p.targetRefs := by
      rw [refs, hr]
      rfl
    exact .reference hrefs (by rintro _ ⟨⟩) hnames
  | none =>
    rw [panelDatasource?_eq_none_iff] at hpanel
    rw [Option.none_or]
    cases htargets : p.targetRefs.findSome? fun r => nonempty? r.resolved? with
    | some uid =>
      obtain ⟨before, r, after, hrefs, huid, hbefore⟩ := List.findSome?_eq_some_iff.1 htargets
      have hoffers := offers_iff.1 huid
      have hfirst : NoneNamed (p.datasource?.toList ++ before) :=
        noneNamed_append.2 ⟨hpanel, noneNamed_of_forall hbefore⟩
      have hsingle : uid ≠ mixedDatasource := by
        rintro rfl
        exact h ⟨before, r, after, hrefs, hoffers.uid_eq, hfirst⟩
      exact .reference (by rw [refs, hrefs, List.append_assoc]) hfirst ⟨hoffers, hsingle⟩
    | none =>
      have hnone : NoneNamed p.refs :=
        noneNamed_append.2
          ⟨hpanel, noneNamed_of_forall (List.findSome?_eq_none_iff.1 htargets)⟩
      rw [Option.none_or]
      cases default? with
      | none => exact .none hnone (.inl rfl)
      | some uid =>
        by_cases huid : uid = ""
        · rw [huid]
          exact .none hnone (.inr rfl)
        · have hgiven : nonempty? (some uid) = some uid := by simp [nonempty?, huid]
          rw [hgiven]
          exact .default hnone rfl huid

/-! ## Batches -/

/-- All queries of a batch ask the datasource that it was built for. -/
theorem Batch.datasourceUid_of_build {exprs : List String} {uid : String} {range : TimeRange}
    {intervalMs? maxDataPoints? : Option Int} {batch : Batch}
    (h : (build exprs uid range intervalMs? maxDataPoints?).outcome = .ok batch) {q : QuerySpec}
    (hq : q ∈ batch.queries) : q.datasourceUid = uid := by
  unfold build at h
  split at h
  · cases h
  · cases h
    obtain ⟨_, -, rfl⟩ := List.mem_map.1 hq
    rfl

/-- A batch that a panel sends asks a variable, or the placeholder without the exception, only if
the options or the settings name it. -/
theorem Panel.Sends.named {p : Panel} {params : ExportParams} {settings : Settings}
    {options : ExportOptions} {batch : Batch} (h : p.Sends params settings options batch)
    {q : QuerySpec} (hq : q ∈ batch.queries)
    (huid : isVariable q.datasourceUid.toList = true ∨
      q.datasourceUid = mixedDatasource ∧ ¬ p.OffersMixed) :
    options.datasourceUid? = some q.datasourceUid ∨
      settings.datasourceUid? = some q.datasourceUid := by
  obtain ⟨uid, hchosen, hbuilt⟩ := h
  rw [Batch.datasourceUid_of_build hbuilt hq] at huid ⊢
  rcases Option.or_eq_some_iff.1 hchosen with hgiven | ⟨-, hresolved⟩
  · exact .inl (Option.filter_eq_some_iff.1 hgiven).1
  · by_cases hmixed : p.OffersMixed
    · rw [resolveDatasource_of_offersMixed hmixed] at hresolved
      cases hresolved
      rcases huid with hvariable | ⟨-, hnot⟩
      · rw [isVariable_mixedDatasource] at hvariable
        cases hvariable
      · exact absurd hmixed hnot
    · have hresolves := resolvesTo_of_not_offersMixed hmixed settings.datasourceUid?
      rw [hresolved] at hresolves
      cases hresolves with
      | reference _ _ names =>
        rcases huid with hvariable | ⟨hplaceholder, -⟩
        · rw [names.not_isVariable] at hvariable
          cases hvariable
        · exact absurd hplaceholder names.single
      | default _ given _ => exact .inr given

/-- The batch of a panel goes to the first reference that names a datasource, and without one to the
default; only if a target before it refers to the placeholder, it goes there. In any course of a
session, an export that awaits its results has sent a batch which asks a variable, or the
placeholder without this exception, only if its options or the settings name it. -/
theorem resolveDatasource_settles (p : Panel) (default? : Option String) :
    ((¬ p.OffersMixed → p.ResolvesTo default? (resolveDatasource p default?)) ∧
      (p.OffersMixed → resolveDatasource p default? = some mixedDatasource)) ∧
    ∀ (params : ExportParams) (settings : Settings) (files : FileTree) (course : List Stimulus)
      (number : Nat) (options : ExportOptions) (batch : Batch),
      let x := Exchange.create params settings files
      (x.run course).1.calls[number]? = some (.waits (.results options batch)) →
        ∃ sent between panel, course = sent ++ between ∧ x.SentLast sent number batch panel ∧
          ∀ q ∈ batch.queries,
            isVariable q.datasourceUid.toList = true ∨
                q.datasourceUid = mixedDatasource ∧ ¬ panel.OffersMixed →
              options.datasourceUid? = some q.datasourceUid ∨
                settings.datasourceUid? = some q.datasourceUid := by
  refine ⟨⟨fun h => resolvesTo_of_not_offersMixed h default?,
    fun h => resolveDatasource_of_offersMixed h default?⟩, ?_⟩
  intro params settings files course number options batch x hcall
  obtain ⟨sent, between, panel, hcourse, hsent, hsends, -⟩ :=
    Exchange.run_sender params settings files course hcall
  exact ⟨sent, between, panel, hcourse, hsent, fun q hq huid => hsends.named hq huid⟩

/-- A panel without a datasource, and a target that refers to the placeholder. -/
def mixedTarget : Panel where
  id := .int 1
  dashboardUid := "board"
  title? := none
  datasource? := none
  targets := [.object [("expr", .text "up"),
    ("datasource", .object [("uid", .text mixedDatasource)])]]
  node := []

/-- A batch that goes to the placeholder, and not to the default. -/
theorem resolveDatasource_mixedTarget :
    resolveDatasource mixedTarget (some "prom") = some mixedDatasource ∧
      ¬ mixedTarget.ResolvesTo (some "prom") (some mixedDatasource) := by
  refine ⟨by decide +kernel, fun h => ?_⟩
  generalize huid : some mixedDatasource = uid? at h
  cases h with
  | reference _ _ names =>
    cases huid
    exact names.single rfl
  | default _ given _ =>
    rw [← huid] at given
    revert given
    decide +kernel
  | none => cases huid

end PanelExport
