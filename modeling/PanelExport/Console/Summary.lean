import PanelExport.Batch.Basic
import PanelExport.Console.Item
import PanelExport.Panel.Record

/-!
# The summary of a panel

What users are shown of a panel: its title, its type and its datasource, and then its queries with
the ids that they get in a batch.
-/

namespace PanelExport

/-- How the datasource of a panel is shown: its id, and its type in parentheses. -/
def datasourceLabel : Option DatasourceRef → String
  | none => "-"
  | some r =>
    (nonempty? r.uid?).getD "-" ++ ((nonempty? r.type?).elim "" fun type => " (" ++ type ++ ")")

/-- How the type of a panel is shown. -/
def typeLabel (type : Document) : String :=
  if type.isTruthy then type.shown else "-"

/-- How the title of a panel is shown. -/
def titleLabel (title? : Option String) : String :=
  (nonempty? title?).getD "(untitled)"

/-- The expression of a query, or what is wrong with it. -/
def PanelQuery.markup (q : PanelQuery) : String :=
  match q.fault? with
  | none => escapeMarkup q.expr
  | some fault => Item.tagged "error" (escapeMarkup fault.message)

/-- The queries of a panel as a table. -/
def queryItem (queries : List PanelQuery) : Item :=
  if queries.isEmpty then .info "Panel has no queries"
  else .tableOf "Queries" ["Ref", "Expression"] (queries.map fun q => [refId q.index, q.markup])
    true

/-- What users are shown of a panel and its queries. -/
def Panel.summary (p : Panel) (queries : List PanelQuery) : List Item :=
  Item.keyValues
      [("Title", escapeMarkup (titleLabel p.title?)), ("Type", typeLabel p.type),
        ("Datasource", escapeMarkup (datasourceLabel p.datasource?))]
      "Panel" ++
    [.line "", queryItem queries]

end PanelExport
