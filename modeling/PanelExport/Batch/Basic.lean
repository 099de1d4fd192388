import PanelExport.Panel.Record
import PanelExport.TimeRange

/-!
# Query batches

The queries of a panel in one request: all ask the same datasource for one value at the end of the
same time range. They are told apart by ids that follow from their positions: a letter for each of
the first 26, then a `Q` with the position. A blank expression is left out, but its position keeps
its id.

* `refId_letter`, `refId_numbered`: the two forms of an id.
-/

namespace PanelExport

/-! ## Ids -/

/-- The letters, in order. -/
def letters : List Char := "ABCDEFGHIJKLMNOPQRSTUVWXYZ".toList

/-- The id of the query at a position. -/
def refId (index : Nat) : String :=
  match letters[index]? with
  | some c => String.singleton c
  | none => "Q" ++ toString index

theorem refId_letter {index : Nat} {c : Char} (h : letters[index]? = some c) :
    refId index = String.singleton c := by
  simp [refId, h]

theorem refId_numbered {index : Nat} (h : 26 ≤ index) : refId index = "Q" ++ toString index := by
  have : letters.length = 26 := by decide +kernel
  simp [refId, List.getElem?_eq_none (l := letters) (by omega : letters.length ≤ index)]

/-! ## Batches -/

/-- Why there is no batch. -/
inductive BatchFault where
  | negativeIndex (index : Int)
  | noDatasource

/-- The wording of a fault. -/
def BatchFault.message : BatchFault → String
  | .negativeIndex index => "query index must be non-negative, got " ++ toString index
  | .noDatasource => "datasource_uid is required to build a query batch"

/-- The id of the query at a position that has still to be checked. -/
def checkedRefId (index : Int) : Except BatchFault String :=
  if index < 0 then .error (.negativeIndex index) else .ok (refId index.toNat)

/-- One query of a batch. -/
structure QuerySpec where
  refId : String
  expr : String
  datasourceUid : String
  instant : Bool
  range : Bool
  intervalMs? : Option Int
  maxDataPoints? : Option Int
  deriving DecidableEq

/-- The query as the request names its parts. -/
def QuerySpec.toDocument (q : QuerySpec) : Document :=
  let number? (name : String) (n? : Option Int) : Fields :=
    n?.toList.map fun n => (name, .int n)
  .object
    ([("refId", .text q.refId), ("expr", .text q.expr),
      ("datasource", .object [("uid", .text q.datasourceUid)]),
      ("instant", .bool q.instant), ("range", .bool q.range)] ++
      number? "intervalMs" q.intervalMs? ++ number? "maxDataPoints" q.maxDataPoints?)

/-- Queries that share one time range. -/
structure Batch where
  queries : List QuerySpec
  timeRange : TimeRange
  /-- The ids of the expressions that were left out. -/
  skipped : List String
  deriving DecidableEq

namespace Batch

/-- The ids of the queries. -/
def refIds (b : Batch) : List String := b.queries.map (·.refId)

/-- The body of the request for a batch. -/
def toDocument (b : Batch) : Document :=
  .object (("queries", .list (b.queries.map QuerySpec.toDocument)) :: b.timeRange.toFields)

/-- The expressions with their ids, those that are blank or those that are not. -/
def idsOf (blank : Bool) (exprs : List String) : List (String × String) :=
  (exprs.mapIdx fun index expr => (refId index, expr)).filter fun q => isBlankText q.2 == blank

/-- The batch of some expressions. -/
def ofExprs (exprs : List String) (datasourceUid : String) (timeRange : TimeRange)
    (intervalMs? maxDataPoints? : Option Int) : Batch :=
  { queries := (idsOf false exprs).map fun (refId, expr) =>
      { refId, expr, datasourceUid, instant := true, range := false, intervalMs?, maxDataPoints? }
    timeRange
    skipped := (idsOf true exprs).map (·.1) }

/-- The batch of some expressions for a datasource that is known, with an event if expressions
were left out. -/
def build (exprs : List String) (datasourceUid : String) (timeRange : TimeRange)
    (intervalMs? maxDataPoints? : Option Int) : Logged BatchFault Batch := do
  if datasourceUid = "" then Logged.throw .noDatasource
  else
    let batch := ofExprs exprs datasourceUid timeRange intervalMs? maxDataPoints?
    Logged.logIf (!batch.skipped.isEmpty)
      ⟨.debug, "blank_queries_skipped", [("ref_ids", Document.ofTexts batch.skipped)]⟩
    return batch

end Batch

/-! ## Datasources -/

/-- What a panel refers to if its targets name their own datasources. -/
def mixedDatasource : String := "-- Mixed --"

/-- A text that is not empty. -/
def nonempty? (s? : Option String) : Option String :=
  s?.filter (· ≠ "")

/-- The datasource that a panel itself refers to, if that is one. -/
def panelDatasource? (p : Panel) : Option String :=
  (nonempty? (p.datasource?.bind DatasourceRef.resolved?)).filter (· ≠ mixedDatasource)

/-- The datasource that a target refers to. -/
def targetDatasource? : Document → Option String
  | .object target =>
    nonempty? (((target.lookup "datasource").bind DatasourceRef.ofDocument?).bind
      DatasourceRef.resolved?)
  | _ => none

/-- The datasource for the batch of a panel: the panel's own, else the first of a target, else the
default. -/
def resolveDatasource (p : Panel) (default? : Option String) : Option String :=
  (panelDatasource? p).or ((p.targets.findSome? targetDatasource?).or (nonempty? default?))

end PanelExport
