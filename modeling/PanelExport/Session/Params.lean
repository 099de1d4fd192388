import PanelExport.Session.Fault

/-!
# Parameters of an export

Which panel of which dashboard to export, and for which time range. All three have to be given; a
blank text counts as not given.
-/

namespace PanelExport

/-- What an export needs to know. -/
structure ExportParams where
  dashboardUid : String
  panelId : Int
  timeRange : TimeRange
  deriving DecidableEq

namespace ExportParams

/-- The parameters that have to be given, in the order in which they are looked for. -/
def required : List String := ["dashboard", "panel", "timerange"]

/-- A value that counts as given. -/
def isGiven : Document → Bool
  | .null => false
  | .text s => !isBlankText s
  | _ => true

/-- The value under a name. -/
def valueAt (fields : Fields) (name : String) : Document :=
  (fields.lookup name).getD .null

/-- The number of a panel. -/
def readPanel (d : Document) : Except RunFault Int :=
  match readInt? (trim d.shown).toList with
  | some n => .ok n
  | none => .error (.failure (.invalidParameter "panel" "expected an integer"))

/-- The time range that a value spells. -/
def readRange (d : Document) : Except RunFault TimeRange :=
  match TimeRange.ofText d.shown with
  | .ok r => .ok r
  | .error (.number f) => .error (.number f)
  | .error .tooDeep => .error .tooDeep
  | .error f => .error (.failure (.invalidParameter "timerange" f.message))

/-- The parameters that named values give. -/
def ofFields (fields : Fields) : Except RunFault ExportParams :=
  match required.find? fun name => !isGiven (valueAt fields name) with
  | some name => .error (.failure (.missingParameter name))
  | none => do
    let panelId ← readPanel (valueAt fields "panel")
    let timeRange ← readRange (valueAt fields "timerange")
    return ⟨trim (valueAt fields "dashboard").shown, panelId, timeRange⟩

end ExportParams

end PanelExport
