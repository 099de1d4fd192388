import PanelExport.Query.Parser
import PanelExport.Log.Event
import PanelExport.Text.Word

/-!
# The metrics of a query

Which metrics some expressions select. Dashboard variables stand where the grammar wants something
else, so each is replaced by a duration first. An expression that is no query gives an error in its
own place and no metrics.
-/

namespace PanelExport.Query

/-- What a dashboard variable is replaced by. -/
def macroValue : List Char := ['5', 'm']

/-- A text with every dashboard variable, a dollar sign and the word behind it, replaced. -/
def stripMacrosFrom : List Char → List Char
  | [] => []
  | c :: cs =>
    if c = '$' ∧ runLength isWord cs ≠ 0 then
      macroValue ++ stripMacrosFrom (cs.drop (runLength isWord cs))
    else c :: stripMacrosFrom cs
termination_by cs => cs.length
decreasing_by all_goals (simp only [List.length_drop, List.length_cons]; omega)

/-- A text with every dashboard variable replaced. -/
def stripMacros (text : String) : String :=
  String.ofList (stripMacrosFrom text.toList)

theorem stripMacros_nil : stripMacrosFrom [] = [] := by
  rw [stripMacrosFrom]

/-- The condition on the metric's name that decides which metric a selector names. -/
def Selector.nameMatcher? (s : Selector) : Option Matcher :=
  s.matchers.find? fun m => m.label == metricNameLabel && (m.op == .equal || m.op == .regex)

/-- The metric that a selector names: its own name, else the value that the metric's name has to
equal. A pattern for the name may match many metrics and names none. -/
def Selector.metricName (s : Selector) : String :=
  if s.name ≠ "" then s.name
  else match s.nameMatcher? with
    | some m => if m.op = .equal then m.value else ""
    | none => ""

/-- The selectors of a tree, in order. -/
def Expr.selectors (e : Expr) : List Selector :=
  e.walk.filterMap fun
    | .selector s => some s
    | _ => none

/-- The names with one more at the end, unless it is empty or among them. -/
def addName (names : List String) (name : String) : List String :=
  if name = "" ∨ name ∈ names then names else names ++ [name]

/-- The metrics found in some expressions, and an error for each expression, empty for a query. -/
structure Found where
  metrics : List String
  errors : List String
  deriving DecidableEq

namespace Found

/-- Nothing looked at yet. -/
def nothing : Found := ⟨[], []⟩

/-- The metrics of one more query. -/
def addAll (found : Found) (names : List String) : Found :=
  ⟨names.foldl addName found.metrics, found.errors ++ [""]⟩

/-- The error of one more expression. -/
def addError (found : Found) (error : String) : Found :=
  ⟨found.metrics, found.errors ++ [error]⟩

/-- The number of expressions that are no queries. -/
def failed (found : Found) : Nat :=
  found.errors.countP (· ≠ "")

end Found

/-- What one more expression adds. A number without a value ends the search. -/
def addExpression (found : Found) (text : String) (limit : Nat := callLimit) :
    Except NumberFault Found :=
  let stripped := stripMacros text
  match parse stripped limit with
  | .ok e => .ok (found.addAll (e.selectors.map Selector.metricName))
  | .error (.malformed e) => .ok (found.addError (e.message stripped))
  | .error (.number fault) => .error fault

/-- The metrics of some expressions, in the order in which they are first selected. -/
def metricsOf (texts : List String) (limit : Nat := callLimit) : Except NumberFault Found :=
  texts.foldlM (fun found text => addExpression found text limit) .nothing

/-- The metrics of some expressions, with an event if any of them is no query. -/
def findMetrics (texts : List String) (limit : Nat := callLimit) : Logged NumberFault Found := do
  let found ← .ofExcept (metricsOf texts limit)
  Logged.logIf (found.failed ≠ 0)
    ⟨.debug, "promql_parse_errors",
      [("failed", .int found.failed), ("total", .int texts.length)]⟩
  return found

end PanelExport.Query
