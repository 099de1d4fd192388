import PanelExport.Panel.Tree
import PanelExport.Panel.Datasource
import PanelExport.Failure

/-!
# Panel records

A panel as the export needs it, and the queries that its targets hold: one per target, in order. A
target without a readable expression keeps its place and says what is wrong with it.

* `length_queries`: there is one query per target.
-/

namespace PanelExport

/-- A panel of a dashboard. -/
structure Panel where
  id : Document
  dashboardUid : String
  title? : Option String
  datasource? : Option DatasourceRef
  targets : List Document
  /-- The object that the panel was read from. -/
  node : Fields

namespace Panel

/-- The panel that an object is, in a dashboard. -/
def ofNode (node : Fields) (dashboardUid : String) : Except ShapeFault Panel :=
  match node.lookup "id" with
  | none => .error .noNumber
  | some id =>
    .ok
      { id
        dashboardUid
        title? := (node.lookup "title").bind Document.text?
        datasource? := (node.lookup "datasource").bind DatasourceRef.ofDocument?
        targets := ((node.lookup "targets").bind Document.items?).getD []
        node }

/-- The kind of panel that its object names. -/
def type (p : Panel) : Document :=
  (p.node.lookup "type").getD .null

end Panel

/-! ## Queries -/

/-- Why a target has no expression. -/
inductive TargetFault where
  | notAnObject
  | notAText (field : String)
  | noExpression
  deriving DecidableEq

/-- The wording of a fault. -/
def TargetFault.message : TargetFault → String
  | .notAnObject => "target is not an object"
  | .notAText field => "target field " ++ quoted field ++ " is not a string"
  | .noExpression => "target has no expression field"

/-- The expression of one target, or the reason why it has none. -/
structure PanelQuery where
  index : Nat
  expr : String
  fault? : Option TargetFault
  deriving DecidableEq

/-- The query could be read. -/
def PanelQuery.ok (q : PanelQuery) : Bool := q.fault?.isNone

/-- The fields in which a target may hold its expression, the first one first. -/
def expressionFields : List String := ["expr", "query"]

/-- The first entry that one of some names has. -/
def firstField? (target : Fields) : List String → Option (String × Document)
  | [] => none
  | name :: names =>
    match target.lookup name with
    | some d => some (name, d)
    | none => firstField? target names

/-- The expression of a target. -/
def readTarget : Document → Except TargetFault String
  | .object target =>
    match firstField? target expressionFields with
    | some (_, .text expr) => .ok expr
    | some (name, _) => .error (.notAText name)
    | none => .error .noExpression
  | _ => .error .notAnObject

/-- The query at a position. -/
def queryAt (index : Nat) (target : Document) : PanelQuery :=
  match readTarget target with
  | .ok expr => ⟨index, expr, none⟩
  | .error fault => ⟨index, "", some fault⟩

/-- The queries of a panel, one per target. -/
def Panel.queries (p : Panel) : List PanelQuery :=
  p.targets.mapIdx queryAt

theorem length_queries (p : Panel) : p.queries.length = p.targets.length := by
  simp [Panel.queries]

/-- The event that some targets of a panel have no expression. -/
def queryFaultsEvent (p : Panel) (positions : List Nat) : Event :=
  ⟨.warning, "query_extraction_faults",
    [("dashboard_uid", .text p.dashboardUid), ("panel_id", p.id),
      ("positions", .list (positions.map fun n : Nat => .int n))]⟩

/-- The queries of a panel, with an event if some targets have no expression. -/
def extractQueries {ε : Type} (p : Panel) : Logged ε (List PanelQuery) := do
  let positions := (p.queries.filter (!·.ok)).map (·.index)
  Logged.logIf (!positions.isEmpty) (queryFaultsEvent p positions)
  return p.queries

end PanelExport
