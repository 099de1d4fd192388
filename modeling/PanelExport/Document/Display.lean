import PanelExport.Document.Basic
import PanelExport.Text.Wording

/-!
# Documents in messages

How a document is spelled inside a message: a text as it is, anything else in brackets and with its
texts quoted.

* `Document.shown_text`: a text on its own is shown as it is.
-/

namespace PanelExport

namespace Document

mutual

/-- The spelling of a document with its texts quoted. -/
def quotedForm : Document → String
  | .null => "None"
  | .bool true => "True"
  | .bool false => "False"
  | .int n => toString n
  | .float x => x.text
  | .text s => quoted s
  | .list items => "[" ++ ", ".intercalate (quotedItems items) ++ "]"
  | .object entries => "\x7b" ++ ", ".intercalate (quotedEntries entries) ++ "\x7d"

/-- The spellings of the items of a list. -/
def quotedItems : List Document → List String
  | [] => []
  | d :: ds => quotedForm d :: quotedItems ds

/-- The spellings of the entries of an object. -/
def quotedEntries : List (String × Document) → List String
  | [] => []
  | (name, d) :: es => (quoted name ++ ": " ++ quotedForm d) :: quotedEntries es

end

/-- The spelling of a document on its own. -/
def shown : Document → String
  | .text s => s
  | d => quotedForm d

theorem shown_text (s : String) : (Document.text s).shown = s := rfl

end Document

end PanelExport
