import PanelExport.Document.Display
import PanelExport.Text.Word

/-!
# References to datasources

A panel or a target refers to its datasource by a text, or by an object with an entry `uid`. A
reference may be a dashboard variable, which stands for a datasource that is not known here.
-/

namespace PanelExport

/-- A reference to the place that a panel's data come from. -/
structure DatasourceRef where
  uid? : Option String
  type? : Option String
  /-- The reference is a plain text. -/
  legacy : Bool
  deriving DecidableEq

/-- A character inside the name of a variable. -/
def isVariableChar (c : Char) : Bool :=
  isWord c || c == '.' || c == ':'

/-- A dashboard variable: a dollar sign and a name, which may stand in braces. A newline may end
the text. -/
def isVariable : List Char → Bool
  | '$' :: cs =>
    let cs := match cs with
      | '\x7b' :: cs => cs
      | cs => cs
    let behind := cs.dropWhile isVariableChar
    let behind' := match behind with
      | '\x7d' :: cs => cs
      | cs => cs
    behind.length < cs.length && (behind' == [] || behind' == ['\n'])
  | _ => false

namespace DatasourceRef

/-- The reference that a document is, if it is one. -/
def ofDocument? : Document → Option DatasourceRef
  | .text s => if s = "" then none else some ⟨some s, none, true⟩
  | .object entries =>
    let uid := (Document.object entries).field "uid"
    let type := (Document.object entries).field "type"
    some
      { uid? := if uid.isBlankValue then none else some uid.shown
        type? := if type.isTruthy then some type.shown else none
        legacy := false }
  | _ => none

/-- The reference is a dashboard variable. -/
def isTemplate (r : DatasourceRef) : Bool :=
  r.uid?.any fun uid => isVariable uid.toList

/-- The datasource that is referred to, if it is known. -/
def resolved? (r : DatasourceRef) : Option String :=
  if r.isTemplate then none else r.uid?

end DatasourceRef

end PanelExport
