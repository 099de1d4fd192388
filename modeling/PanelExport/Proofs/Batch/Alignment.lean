import Mathlib.Data.List.Count
import Mathlib.Data.List.Nodup
import Mathlib.Data.Option.Basic
import PanelExport.Console.Summary
import PanelExport.Proofs.Numeral
import PanelExport.Proofs.Outcome
import PanelExport.Proofs.Result.Lines

/-!
# Targets, queries and ids

The targets of a panel are counted three times over: when their expressions are read, when the
expressions are put into a batch, and when users are shown them. Here the three are in step: an id
stands for one target, whatever is wrong with the other ones.

* `refId_injective`: different positions have different ids.
* `holdsExpression_iff`: which targets have an expression, and what the panel's query makes of it.
* `Batch.count_refId`: how often an id is among those of some positions.
* `Panel.exists_aligned`: the batch of a panel is in step with its targets and with what is shown.
-/

namespace PanelExport

open Document

/-! ## Ids -/

theorem length_letters : letters.length = 26 := by decide +kernel

theorem nodup_letters : letters.Nodup := by decide +kernel

theorem toString_injective : Function.Injective (toString : Nat → String) := by
  intro i j h
  rw [Nat.toString_eq_ofList_toDigits, Nat.toString_eq_ofList_toDigits, String.ofList_inj] at h
  rw [← ofDigits_toDigits i, h, ofDigits_toDigits]

/-- A letter is shorter than a numbered id. -/
theorem refId_ne {i j : Nat} (hi : i < 26) (hj : 26 ≤ j) : refId i ≠ refId j := by
  intro h
  have hletter := refId_letter (List.getElem?_eq_getElem (length_letters ▸ hi))
  have hdigits : 0 < (toString j).length := by
    rw [Nat.toString_eq_ofList_toDigits, String.length_ofList]
    exact Nat.length_toDigits_pos
  have hlength : 1 = "Q".length + (toString j).length := by
    rw [← String.length_append, ← refId_numbered hj, ← h, hletter, String.length_singleton]
  have hmark : "Q".length = 1 := rfl
  omega

/-- Different positions have different ids. -/
theorem refId_injective : Function.Injective refId := by
  intro i j h
  rcases Nat.lt_or_ge i 26 with hi | hi
  · rcases Nat.lt_or_ge j 26 with hj | hj
    · have hi' := length_letters ▸ hi
      have hj' := length_letters ▸ hj
      rw [refId_letter (List.getElem?_eq_getElem hi'), refId_letter (List.getElem?_eq_getElem hj'),
        String.singleton_inj] at h
      exact (List.Nodup.getElem_inj_iff nodup_letters).1 h
    · exact absurd h (refId_ne hi hj)
  · rcases Nat.lt_or_ge j 26 with hj | hj
    · exact absurd h.symm (refId_ne hj hi)
    · rw [refId_numbered hi, refId_numbered hj, String.append_right_inj] at h
      exact toString_injective h

/-! ## Expressions of targets -/

/-- A target has an expression: its entry `expr`, or else its entry `query`, is a text, and not a
blank one. -/
def HoldsExpression (target : Document) (expr : String) : Prop :=
  (target.field? "expr" = some (.text expr) ∨
      target.field? "expr" = none ∧ target.field? "query" = some (.text expr)) ∧
    ∃ c ∈ expr.toList, isBlank c = false

/-- The text of a target is the one under its first name, or if there is nothing, under its second
one. -/
theorem readTarget_eq_ok_iff {target : Document} {expr : String} :
    readTarget target = .ok expr ↔ target.field? "expr" = some (.text expr) ∨
      target.field? "expr" = none ∧ target.field? "query" = some (.text expr) := by
  cases target with
  | object fields =>
    simp only [readTarget, expressionFields, firstField?, field?_object]
    cases fields.lookup "expr" with
    | some v => cases v <;> simp
    | none =>
      cases fields.lookup "query" with
      | some v => cases v <;> simp
      | none => simp
  | _ => simp [readTarget, field?]

/-- A query has the expression of its target if the target has one, and else a blank one. -/
theorem holdsExpression_iff {index : Nat} {target : Document} {expr : String} :
    HoldsExpression target expr ↔
      (queryAt index target).expr = expr ∧ isBlankText expr = false := by
  rw [HoldsExpression, ← readTarget_eq_ok_iff, ← isBlankText_eq_false_iff]
  refine and_congr_left fun hblank => ?_
  unfold queryAt
  cases h : readTarget target with
  | ok text => simp
  | error fault =>
    refine iff_of_false nofun fun hempty => ?_
    subst hempty
    cases hblank

/-- The query of a panel that stands in a place comes from the target there. -/
theorem index_of_queries {p : Panel} {i : Nat} {q : PanelQuery} (h : p.queries[i]? = some q) :
    ∃ target, p.targets[i]? = some target ∧ q = queryAt i target := by
  rw [Panel.queries, List.getElem?_mapIdx, Option.map_eq_some_iff] at h
  obtain ⟨target, htarget, rfl⟩ := h
  exact ⟨target, htarget, rfl⟩

/-! ## Ids of a batch -/

namespace Batch

/-- The expressions with their positions, those that are blank or those that are not. -/
def placed (blank : Bool) (exprs : List String) : List (String × Nat) :=
  exprs.zipIdx.filter fun e => isBlankText e.1 == blank

/-- The positions of the blank expressions, or of the others. -/
def positions (blank : Bool) (exprs : List String) : List Nat :=
  (placed blank exprs).map (·.2)

variable {blank : Bool} {exprs : List String}

/-- The identifiers of some expressions are those of their places. -/
theorem idsOf_eq : idsOf blank exprs = (placed blank exprs).map fun e => (refId e.2, e.1) := by
  rw [idsOf, List.mapIdx_eq_zipIdx_map, List.filter_map]
  rfl

/-- An expression is placed where it stands, with the blank ones or with the others. -/
theorem mem_placed {e : String × Nat} :
    e ∈ placed blank exprs ↔ exprs[e.2]? = some e.1 ∧ isBlankText e.1 = blank := by
  rw [placed, List.mem_filter, List.mem_zipIdx_iff_getElem?, beq_iff_eq]

/-- The places of the blank expressions, or of the others, are where such a one stands. -/
theorem mem_positions {i : Nat} :
    i ∈ positions blank exprs ↔ ∃ expr, exprs[i]? = some expr ∧ isBlankText expr = blank := by
  simp [positions, mem_placed]

/-- Places are listed from left to right. -/
theorem positions_increase : (positions blank exprs).Pairwise (· < ·) := by
  have hrange : (exprs.zipIdx.map (·.2)).Pairwise (· < ·) := by
    rw [List.zipIdx_map_snd]
    exact List.pairwise_lt_range' 1
  exact hrange.sublist ((List.filter_sublist ..).map _)

/-- An id is among those of some positions as often as its own position is. -/
theorem count_refId {i : Nat} :
    ((positions blank exprs).map refId).count (refId i) =
      if i ∈ positions blank exprs then 1 else 0 := by
  rw [List.count_map_of_injective _ _ refId_injective]
  exact List.Nodup.count (positions_increase.imp Nat.ne_of_lt)

variable {uid : String} {range : TimeRange} {intervalMs? maxDataPoints? : Option Int}

/-- A batch asks under the identifiers of the places where something is asked. -/
theorem refIds_ofExprs : (ofExprs exprs uid range intervalMs? maxDataPoints?).refIds =
    (positions false exprs).map refId := by
  simp only [ofExprs, refIds, idsOf_eq, positions, List.map_map]
  rfl

/-- A batch leaves out the identifiers of the places where nothing is asked. -/
theorem skipped_ofExprs : (ofExprs exprs uid range intervalMs? maxDataPoints?).skipped =
    (positions true exprs).map refId := by
  simp only [ofExprs, idsOf_eq, positions, List.map_map]
  rfl

/-- A query asks for the expression at the position of its id. -/
theorem of_mem_queries {q : QuerySpec}
    (h : q ∈ (ofExprs exprs uid range intervalMs? maxDataPoints?).queries) :
    q.datasourceUid = uid ∧ ∃ i, q.refId = refId i ∧ exprs[i]? = some q.expr := by
  simp only [ofExprs, idsOf_eq, List.map_map, List.mem_map] at h
  obtain ⟨e, he, rfl⟩ := h
  exact ⟨rfl, e.2, rfl, (mem_placed.1 he).1⟩

end Batch

/-! ## Requests -/

namespace QuerySpec

variable (q : QuerySpec)

theorem refId_toDocument : q.toDocument.field? "refId" = some (.text q.refId) := rfl

theorem expr_toDocument : q.toDocument.field? "expr" = some (.text q.expr) := rfl

theorem datasource_toDocument :
    q.toDocument.field? "datasource" = some (.object [("uid", .text q.datasourceUid)]) := rfl

end QuerySpec

/-- The ids under which the queries in the body of a request ask. -/
def idsAsked (body : Document) : List (Option String) :=
  (body.itemsIn "queries").map fun q => (q.field? "refId").bind text?

/-- A request asks once under an id, for an expression. -/
structure AsksOnce (body : Document) (id expr : String) : Prop where
  once : (idsAsked body).count (some id) = 1
  expr_eq : ∀ q ∈ body.itemsIn "queries", q.field? "refId" = some (.text id) →
    q.field? "expr" = some (.text expr)

/-- What is sent asks for the identifiers of the batch in their order. -/
theorem idsAsked_toDocument (b : Batch) : idsAsked b.toDocument = b.refIds.map some := by
  rw [Batch.refIds, List.map_map]
  exact List.map_map ..

/-- A batch is in step with the targets of its panel, and with what is shown of them. -/
structure Aligned (p : Panel) (uid : String) (range : TimeRange) (batch : Batch) : Prop where
  indices : p.queries.map (·.index) = List.range p.targets.length
  /-- A target is asked for once under its id, or it has no expression and its id is left out. -/
  position : ∀ (i : Nat) (target : Document), p.targets[i]? = some target →
    Xor
      (∃ expr, HoldsExpression target expr ∧ AsksOnce batch.toDocument (refId i) expr)
      ((¬ ∃ expr, HoldsExpression target expr) ∧ batch.skipped.count (refId i) = 1 ∧
        some (refId i) ∉ idsAsked batch.toDocument)
  ordered : ∃ positions : List Nat, positions.Pairwise (· < ·) ∧
    (∀ i ∈ positions, i < p.targets.length) ∧
    idsAsked batch.toDocument = positions.map fun i => some (refId i)
  datasource : ∀ q ∈ batch.toDocument.itemsIn "queries",
    q.field? "datasource" = some (.object [("uid", .text uid)])
  bounds : batch.toDocument.field? "from" = some (.text range.start) ∧
    batch.toDocument.field? "to" = some (.text range.finish)
  shown : p.targets ≠ [] → ∃ rows,
    Item.table "Queries" ["Ref", "Expression"] rows true ∈ p.summary p.queries ∧
      ∀ (i : Nat) (q : PanelQuery), p.queries[i]? = some q → rows[i]? = some [refId i, q.markup]

/-! ## What is shown -/

/-- Rows that are as long as the line above them stay as they are. -/
theorem tableOf_even {title : String} {columns : List String} {rows : List (List String)}
    {showHeader : Bool} (h : ∀ row ∈ rows, row.length = columns.length) :
    Item.tableOf title columns rows showHeader = .table title columns rows showHeader := by
  have hwidth : rows.foldl (fun n row => max n row.length) columns.length = columns.length := by
    induction rows with
    | nil => rfl
    | cons row rows ih =>
      obtain ⟨hrow, hrows⟩ := List.forall_mem_cons.1 h
      rw [List.foldl_cons, hrow, Nat.max_self, ih hrows]
  have hpadded : ∀ row : List String, row.length = columns.length →
      Item.padded columns.length row = row := by
    intro row hrow
    rw [Item.padded, hrow, Nat.sub_self, List.replicate_zero, List.append_nil]
  have hrows : rows.map (Item.padded columns.length) = rows :=
    (List.map_congr_left fun row hrow => hpadded row (h row hrow)).trans (List.map_id _)
  simp only [Item.tableOf, List.foldl_cons, Nat.zero_max, hwidth, hpadded _ rfl, hrows]

theorem queryItem_of_ne_nil {queries : List PanelQuery} (h : queries ≠ []) :
    queryItem queries = .table "Queries" ["Ref", "Expression"]
      (queries.map fun q => [refId q.index, q.markup]) true := by
  rw [queryItem, if_neg (by simpa using h), tableOf_even]
  simp

/-! ## Panels -/

section Panels

variable {p : Panel} {uid : String} {range : TimeRange} {intervalMs? maxDataPoints? : Option Int}

theorem exprs_getElem? {i : Nat} {target : Document} (h : p.targets[i]? = some target) :
    (p.queries.map (·.expr))[i]? = some (queryAt i target).expr := by
  rw [List.getElem?_map, Panel.queries, List.getElem?_mapIdx, h]
  rfl

theorem index_queryAt (index : Nat) (target : Document) : (queryAt index target).index = index := by
  unfold queryAt
  cases readTarget target <;> rfl

variable (p uid range intervalMs? maxDataPoints?) in
/-- The batch that a panel's expressions make. -/
def Panel.batch : Batch :=
  .ofExprs (p.queries.map (·.expr)) uid range intervalMs? maxDataPoints?

/-- Whether a target is asked for shows in its expression. -/
theorem mem_positions_queries {i : Nat} {target : Document} (h : p.targets[i]? = some target)
    {blank : Bool} : i ∈ Batch.positions blank (p.queries.map (·.expr)) ↔
      isBlankText (queryAt i target).expr = blank := by
  rw [Batch.mem_positions, exprs_getElem? h]
  simp

/-- A target with an expression is asked for once, under the identifier of its place. -/
theorem asksOnce_batch {i : Nat} {target : Document} (h : p.targets[i]? = some target)
    {expr : String} (hexpr : HoldsExpression target expr) :
    AsksOnce (p.batch uid range intervalMs? maxDataPoints?).toDocument (refId i) expr := by
  obtain ⟨rfl, hblank⟩ : (queryAt i target).expr = expr ∧ isBlankText expr = false :=
    holdsExpression_iff.1 hexpr
  constructor
  · rw [idsAsked_toDocument, List.count_map_of_injective _ _ (Option.some_injective _), Panel.batch,
      Batch.refIds_ofExprs, Batch.count_refId, if_pos ((mem_positions_queries h).2 hblank)]
  · intro q hq hid
    obtain ⟨spec, hspec, rfl⟩ := List.mem_map.1 hq
    obtain ⟨-, j, hj, hplace⟩ := Batch.of_mem_queries hspec
    rw [QuerySpec.refId_toDocument, hj, Option.some.injEq, Document.text.injEq] at hid
    obtain rfl := refId_injective hid
    rw [exprs_getElem? h, Option.some.injEq] at hplace
    rw [QuerySpec.expr_toDocument, hplace]

/-- A target without an expression is left out once and not asked for. -/
theorem leftOut_batch {i : Nat} {target : Document} (h : p.targets[i]? = some target)
    (hnone : ¬ ∃ expr, HoldsExpression target expr) :
    (p.batch uid range intervalMs? maxDataPoints?).skipped.count (refId i) = 1 ∧
      some (refId i) ∉ idsAsked (p.batch uid range intervalMs? maxDataPoints?).toDocument := by
  have hblank : isBlankText (queryAt i target).expr = true := by
    by_contra hvisible
    exact hnone ⟨_, holdsExpression_iff.2 ⟨rfl, Bool.of_not_eq_true hvisible⟩⟩
  constructor
  · rw [Panel.batch, Batch.skipped_ofExprs, Batch.count_refId,
      if_pos ((mem_positions_queries h).2 hblank)]
  · rw [idsAsked_toDocument, List.mem_map_of_injective (Option.some_injective _), Panel.batch,
      Batch.refIds_ofExprs, List.mem_map_of_injective refId_injective, mem_positions_queries h,
      hblank]
    exact nofun

/-- The batch of a panel is aligned with the targets of the panel. -/
theorem aligned_batch (p : Panel) (uid : String) (range : TimeRange)
    (intervalMs? maxDataPoints? : Option Int) :
    Aligned p uid range (p.batch uid range intervalMs? maxDataPoints?) where
  indices := by
    have hplaces : p.queries.map (·.index) = p.targets.zipIdx.map (·.2) := by
      rw [Panel.queries, List.mapIdx_eq_zipIdx_map, List.map_map]
      exact List.map_congr_left fun e _ => index_queryAt e.2 e.1
    rw [hplaces, List.zipIdx_map_snd, List.range_eq_range']
  position i target h := by
    by_cases hexpr : ∃ expr, HoldsExpression target expr
    · obtain ⟨expr, hexpr⟩ := hexpr
      exact .inl ⟨⟨expr, hexpr, asksOnce_batch h hexpr⟩, fun hnone => hnone.1 ⟨expr, hexpr⟩⟩
    · refine .inr ⟨⟨hexpr, leftOut_batch h hexpr⟩, fun hasked => ?_⟩
      exact hexpr (hasked.imp fun _ => And.left)
  ordered := by
    refine ⟨Batch.positions false (p.queries.map (·.expr)), Batch.positions_increase, ?_, ?_⟩
    · intro i hi
      obtain ⟨expr, hexpr, -⟩ := Batch.mem_positions.1 hi
      have hlt := (List.getElem?_eq_some_iff.1 hexpr).1
      rwa [List.length_map, length_queries] at hlt
    · rw [idsAsked_toDocument, Panel.batch, Batch.refIds_ofExprs, List.map_map]
      rfl
  datasource q hq := by
    obtain ⟨spec, hspec, rfl⟩ := List.mem_map.1 hq
    rw [QuerySpec.datasource_toDocument, (Batch.of_mem_queries hspec).1]
  bounds := ⟨rfl, rfl⟩
  shown hne := by
    have hqueries : p.queries ≠ [] := by
      rw [← List.length_pos_iff, length_queries]
      exact List.length_pos_iff.2 hne
    refine ⟨p.queries.map fun q => [refId q.index, q.markup], ?_, fun i q hq => ?_⟩
    · rw [← queryItem_of_ne_nil hqueries]
      simp [Panel.summary]
    · obtain ⟨target, -, rfl⟩ := index_of_queries hq
      rw [List.getElem?_map, hq, Option.map_some, index_queryAt]

end Panels

/-- The batch of a panel's expressions is in step with the targets of the panel, and an id stands
for one position. -/
theorem Panel.exists_aligned (p : Panel) {uid : String} (huid : uid ≠ "") (range : TimeRange)
    (intervalMs? maxDataPoints? : Option Int) :
    Function.Injective refId ∧ ∃ batch,
      (Batch.build (p.queries.map (·.expr)) uid range intervalMs? maxDataPoints?).outcome =
        .ok batch ∧
      Aligned p uid range batch := by
  refine ⟨refId_injective, p.batch uid range intervalMs? maxDataPoints?, ?_,
    aligned_batch p uid range intervalMs? maxDataPoints?⟩
  rw [Batch.build, if_neg huid]
  rfl

/-- A panel with a target that is no object, a blank expression and one in the second place. -/
def mixedPanel : Panel where
  id := .int 1
  dashboardUid := "board"
  title? := none
  datasource? := none
  targets := [.object [("query", .text "up")], .text "junk", .object [("expr", .text " ")],
    .object [("expr", .text "down"), ("query", .text "up")]]
  node := []

theorem Panel.exists_aligned_mixed :
    "ds" ≠ "" ∧ ∃ batch,
      (Batch.build (mixedPanel.queries.map (·.expr)) "ds" ⟨"now-1h", "now"⟩ none none).outcome =
        .ok batch ∧
      Aligned mixedPanel "ds" ⟨"now-1h", "now"⟩ batch ∧
      batch.refIds = ["A", "D"] ∧ batch.skipped = ["B", "C"] := by
  obtain ⟨-, batch, hbatch, haligned⟩ :=
    Panel.exists_aligned mixedPanel (by decide : "ds" ≠ "") ⟨"now-1h", "now"⟩ none none
  have hbuilt :
      (Batch.build (mixedPanel.queries.map (·.expr)) "ds" ⟨"now-1h", "now"⟩ none none).outcome =
        .ok (mixedPanel.batch "ds" ⟨"now-1h", "now"⟩ none none) := rfl
  obtain rfl := Except.ok.inj (hbatch.symm.trans hbuilt)
  exact ⟨by decide, _, hbatch, haligned, by decide +kernel, by decide +kernel⟩

end PanelExport
