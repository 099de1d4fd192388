import PanelExport.Document.Display
import PanelExport.Log.Event
import PanelExport.Result.Group

/-!
# From results to lines

A sample is written on one line: the metric, its labels in braces, the value and the time. A frame
gives one line per sample of its first column of numbers, at the time that its first column of times
has in the same row. A frame without two such columns of one length gives no lines, and that is no
error.

* `Frame.lines_of_skipped`: a skipped frame has no lines.
-/

namespace PanelExport

/-! ## Lines -/

/-- The labels of a sample, in order. -/
def formatLabels (labels : Fields) : String :=
  if labels.isEmpty then ""
  else "\x7b" ++
    ",".intercalate (labels.map fun (name, value) => name ++ "=\"" ++ value.shown ++ "\"") ++ "\x7d"

/-- The value of a sample. A double without fraction is written as a whole number. -/
def formatValue : Document → String
  | .null => "NaN"
  | .bool b => if b then "1" else "0"
  | .float .nan => "NaN"
  | .float (.infinite negative) => if negative then "-Inf" else "+Inf"
  | .float x =>
    match x.toInt? with
    | some n => toString n
    | none => x.text
  | d => d.shown

/-- The time of a sample. A double without fraction is written as a whole number. -/
def formatTime : Document → String
  | .float x =>
    match x.toInt? with
    | some n => toString n
    | none => x.text
  | d => d.shown

/-- The line of a sample. -/
def formatLine (metric : String) (labels : Fields) (value time : Document) : String :=
  metric ++ formatLabels labels ++ " " ++ formatValue value ++ " " ++ formatTime time

/-! ## Frames -/

/-- The label that keeps the name of a metric. -/
def metricLabel : String := "__name__"

/-- Why a frame gives no lines. -/
inductive SkipReason where
  | noFields
  | noValues
  | lengths (times numbers : Nat)
  deriving DecidableEq

/-- The wording of a reason. -/
def SkipReason.message : SkipReason → String
  | .noFields => "missing time or number field"
  | .noValues => "missing values"
  | .lengths _ _ => "column length mismatch"

/-- The named parts of a reason. -/
def SkipReason.details : SkipReason → Fields
  | .lengths times numbers => [("times", .int times), ("numbers", .int numbers)]
  | _ => []

/-- The metric that a field's samples belong to: its label for it, or else the name to show. -/
def Field.metric (f : Field) : String :=
  ((f.labels.lookup metricLabel).getD f.displayName).shown

/-- The labels of a field's samples. -/
def Field.sampleLabels (f : Field) : Fields :=
  f.labels.filter (·.1 ≠ metricLabel)

/-- The columns of a frame that make up its samples: the field of the numbers, their times and the
numbers. -/
structure Samples where
  field : Field
  times : List Document
  numbers : List Document

namespace Frame

/-- The samples of a frame, or the reason why it has none. -/
def samples (f : Frame) : Except SkipReason Samples :=
  match f.indexOfType? "time", f.indexOfType? "number" with
  | some i, some j =>
    match f.values[i]?, f.values[j]? with
    | some times, some numbers =>
      if times.length = numbers.length then
        .ok ⟨f.fields[j]?.getD (Field.ofDocument .null), times, numbers⟩
      else .error (.lengths times.length numbers.length)
    | _, _ => .error .noValues
  | _, _ => .error .noFields

/-- The lines of a frame. -/
def lines (f : Frame) : List String :=
  match f.samples with
  | .ok s => List.zipWith (fun time value =>
      formatLine s.field.metric s.field.sampleLabels value time) s.times s.numbers
  | .error _ => []

theorem lines_of_skipped {f : Frame} {reason : SkipReason} (h : f.samples = .error reason) :
    f.lines = [] := by
  simp [lines, h]

/-- The event that a frame is skipped, if it is. -/
def events (f : Frame) : List Event :=
  match f.samples with
  | .ok _ => []
  | .error reason =>
    [⟨.debug, "frame_skipped",
      [("reason", .text reason.message), ("frame", .text f.name)] ++ reason.details⟩]

end Frame

/-- The event that a query has an error, if it has. -/
def Group.errorEvents (g : Group) : List Event :=
  g.error?.toList.map fun e =>
    ⟨.warning, "query_error",
      [("ref_id", .text g.refId), ("error", .text e), ("status", g.status)]⟩

namespace QueryResult

/-- The lines of a result. -/
def lines (r : QueryResult) : List String :=
  r.groups.flatMap fun g => g.frames.flatMap Frame.lines

/-- The events of the way from a result to its lines. -/
def events (r : QueryResult) : List Event :=
  r.groups.flatMap fun g => g.errorEvents ++ g.frames.flatMap Frame.events

/-- The text of a result: its lines with newlines between them. -/
def text (r : QueryResult) : String :=
  "\n".intercalate r.lines

end QueryResult

end PanelExport
