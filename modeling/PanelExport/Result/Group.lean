import PanelExport.Result.Frame

/-!
# Query results

The reply to a batch: one group per query, in the order of the reply, each with its frames and
perhaps an error.
-/

namespace PanelExport

/-- The part of a reply that answers one query. -/
structure Group where
  refId : String
  frames : List Frame
  status : Document
  error? : Option String

/-- The group that a document is, for a query. -/
def Group.ofDocument (refId : String) (d : Document) : Except ShapeFault Group := do
  let fields := d.entries?.getD []
  let frames ← (Frame.itemsAt "frames" fields).mapM Frame.ofDocument
  let error := (fields.lookup "error").getD .null
  return {
    refId
    frames
    status := (fields.lookup "status").getD .null
    error? := if error.isTruthy then some error.shown else none }

/-- The groups of a reply, in order. -/
structure QueryResult where
  groups : List Group

namespace QueryResult

/-- The result that a document is. -/
def ofDocument (d : Document) : Except ShapeFault QueryResult := do
  let results := Field.entriesAt "results" (d.entries?.getD [])
  let groups ← results.mapM fun (refId, d) => Group.ofDocument refId d
  return ⟨groups⟩

/-- The errors of the queries that have one. -/
def errors (r : QueryResult) : List (String × String) :=
  r.groups.filterMap fun g => g.error?.map fun e => (g.refId, e)

end QueryResult

end PanelExport
