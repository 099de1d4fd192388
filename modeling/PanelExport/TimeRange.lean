import PanelExport.Document.Display
import PanelExport.Document.Reader
import PanelExport.Instant.Iso
import PanelExport.Text.CharClass

/-!
# Time ranges

The two bounds that all queries of a batch share. A bound is the text of a number of milliseconds
since the start of 1970, or else an expression relative to now, which is kept as it is.
-/

namespace PanelExport

/-- Why a value is no time range. -/
inductive TimeRangeFault where
  | unreadable (reason : String)
  | notAnObject
  | missing (names : List String)
  | invalidBound (value : Document)
  /-- A bound is a number without a whole part. -/
  | number (fault : NumberFault)
  | tooDeep

/-- The wording of a fault. -/
def TimeRangeFault.message : TimeRangeFault → String
  | .unreadable reason => "not valid JSON: " ++ reason
  | .notAnObject => "expected a JSON object with 'from' and 'to'"
  | .missing names => "missing " ++ ", ".intercalate names
  | .invalidBound value => "invalid time bound: " ++ value.quotedForm
  | .number fault => fault.message
  | .tooDeep => ReadFault.message [] .tooDeep

/-- The milliseconds of an instant: the seconds as a double, times a thousand, without the
fraction. -/
def instantMillis (micros : Int) : Int :=
  (((Double.ofRatio micros 1000000).mul (Double.ofInt 1000)).trunc?).getD 0

/-- A text in which every zone letter is written as an offset. -/
def spellZones (cs : List Char) : List Char :=
  cs.flatMap fun c => if c = 'Z' then "+00:00".toList else [c]

/-- The bound that a text is, without blanks around it. -/
def normalizeText (text : String) : String :=
  let cs := text.toList
  if !cs.isEmpty && cs.all isDigit then text
  else match Instant.readInstant? (spellZones cs) with
    | some micros => toString (instantMillis micros)
    | none => text

/-- The bound that a value is. A number counts milliseconds. -/
def normalizeBound : Document → Except TimeRangeFault String
  | .int n => .ok (toString n)
  | .float x =>
    match wholePart x with
    | .ok n => .ok (toString n)
    | .error fault => .error (.number fault)
  | .text s => .ok (normalizeText (trim s))
  | d => .error (.invalidBound d)

/-- The bounds of a range. -/
structure TimeRange where
  start : String
  finish : String
  deriving DecidableEq

namespace TimeRange

/-- The range that some fields give. -/
def ofFields (fields : Fields) : Except TimeRangeFault TimeRange := do
  let value (name : String) : Document := (fields.lookup name).getD .null
  let missing := ["from", "to"].filter fun name => (value name).isBlankValue
  if missing.isEmpty then
    let start ← normalizeBound (value "from")
    let finish ← normalizeBound (value "to")
    return ⟨start, finish⟩
  else throw (.missing missing)

/-- The range that a text gives, as an object with both bounds. -/
def ofText (text : String) : Except TimeRangeFault TimeRange :=
  match Document.read text.toList with
  | .ok (.object fields) => ofFields fields
  | .ok _ => .error .notAnObject
  | .error .tooDeep => .error .tooDeep
  | .error fault => .error (.unreadable (fault.message text.toList))

/-- The range as fields. -/
def toFields (r : TimeRange) : Fields :=
  [("from", .text r.start), ("to", .text r.finish)]

end TimeRange

end PanelExport
