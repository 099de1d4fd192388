import PanelExport.Document.Display
import PanelExport.Document.Sequence

/-!
# Data frames

A frame is a table: fields, which describe its columns, and the columns themselves. Numbers that the
reply cannot spell, such as infinities, are listed apart by column and position, and are put back
into their cells here.

* `length_replaceAt`: putting a value back keeps the length of a column.
-/

namespace PanelExport

/-- A column's description. -/
structure Field where
  name : String
  type : Document
  labels : Fields
  config : Fields

namespace Field

/-- The entries of the object under a name, if there is one. -/
def entriesAt (name : String) (fields : Fields) : Fields :=
  ((fields.lookup name).bind Document.entries?).getD []

/-- The text of the value under a name; a value that counts as absent has none. -/
def textAt (name : String) (fields : Fields) : String :=
  match fields.lookup name with
  | some d => if d.isTruthy then d.shown else ""
  | none => ""

/-- The field that a document describes; a value that is no object describes a field without name
and type. -/
def ofDocument : Document → Field
  | .object fields =>
    { name := textAt "name" fields
      type := (fields.lookup "type").getD .null
      labels := entriesAt "labels" fields
      config := entriesAt "config" fields }
  | _ => ⟨"", .null, [], []⟩

/-- The name to show: one that the configuration gives, or else the field's own. -/
def displayName (f : Field) : Document :=
  let given (name : String) : Option Document := (f.config.lookup name).filter Document.isTruthy
  ((given "displayNameFromDS").or (given "displayName")).getD (.text f.name)

end Field

/-! ## Values listed apart -/

/-- The words for values that are listed apart, in the order in which they are put back. -/
def entityValues : List (String × Double) :=
  [("NaN", .nan), ("Inf", .infinite false), ("NegInf", .infinite true)]

/-- The position that a value is; a truth value counts as zero or one. -/
def position? : Document → Option Int
  | .int n => some n
  | .bool b => some (if b then 1 else 0)
  | _ => none

/-- The column with a value at a position, if the position is one of its cells. -/
def replaceAt (value : Document) (column : List Document) (position : Document) :
    List Document :=
  match position? position with
  | some n => if 0 ≤ n then column.set n.toNat value else column
  | none => column

theorem length_replaceAt (value : Document) (column : List Document) (position : Document) :
    (replaceAt value column position).length = column.length := by
  unfold replaceAt
  split
  · split <;> simp
  · rfl

/-- The column with the values put back that an object lists. -/
def applyEntity (column : List Document) : Document → Except ShapeFault (List Document)
  | .object entity =>
    entityValues.foldlM (fun column (name, value) => do
      let positions ← ((entity.lookup name).getD .null).elements
      return positions.foldl (replaceAt (.float value)) column) column
  | _ => .ok column

/-- The columns with the values put back that a list of objects lists, one object per column. -/
def applyEntities : List (List Document) → List Document →
    Except ShapeFault (List (List Document))
  | column :: columns, entity :: entities => do
    return (← applyEntity column entity) :: (← applyEntities columns entities)
  | columns, _ => .ok columns

/-! ## Frames -/

/-- A table of named columns. -/
structure Frame where
  fields : List Field
  values : List (List Document)
  name : String
  refId : Document

namespace Frame

/-- The items of the list under a name, if there is one. -/
def itemsAt (name : String) (fields : Fields) : List Document :=
  ((fields.lookup name).bind Document.items?).getD []

/-- The frame that a document is; what is missing or of another shape is empty. -/
def ofDocument (d : Document) : Except ShapeFault Frame := do
  let fields := d.entries?.getD []
  let schema := Field.entriesAt "schema" fields
  let data := Field.entriesAt "data" fields
  let columns := (itemsAt "values" data).map fun column => column.items?.getD []
  let values ← applyEntities columns (itemsAt "entities" data)
  return {
    fields := (itemsAt "fields" schema).map Field.ofDocument
    values
    name := Field.textAt "name" schema
    refId := (schema.lookup "refId").getD .null }

/-- The position of the first field of a type. -/
def indexOfType? (f : Frame) (type : String) : Option Nat :=
  f.fields.findIdx? fun field => field.type.text? == some type

end Frame

end PanelExport
