import PanelExport.Document.Basic

/-!
# Documents as sequences

Lists, texts and objects can be counted and gone through: an object by its names, a text by its
characters. A value that counts as absent stands for the empty sequence; numbers and truth values
are no sequences.
-/

namespace PanelExport

/-- What was asked of a value that is no sequence. -/
inductive ShapeFault where
  | noItems (value : Document)
  | noLength (value : Document)
  /-- A panel has no entry for its number. -/
  | noNumber

namespace Document

/-- The name of a kind of value in messages. -/
def kindName : Document → String
  | .null => "NoneType"
  | .bool _ => "bool"
  | .int _ => "int"
  | .float _ => "float"
  | .text _ => "str"
  | .list _ => "list"
  | .object _ => "dict"

/-- The elements of a value, one after the other. -/
def elements (d : Document) : Except ShapeFault (List Document) :=
  if !d.isTruthy then .ok []
  else match d with
    | .list items => .ok items
    | .text s => .ok (s.toList.map fun c => .text (String.singleton c))
    | .object entries => .ok (entries.map fun e => .text e.1)
    | d => .error (.noItems d)

/-- The number of elements of a value. -/
def count (d : Document) : Except ShapeFault Nat :=
  match elements d with
  | .ok items => .ok items.length
  | .error _ => .error (.noLength d)

end Document

/-- The wording of a fault. -/
def ShapeFault.message : ShapeFault → String
  | .noItems d => "'" ++ d.kindName ++ "' object is not iterable"
  | .noLength d => "object of type '" ++ d.kindName ++ "' has no len()"
  | .noNumber => "'id'"

end PanelExport
