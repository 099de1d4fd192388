import PanelExport.Query.Expr

/-!
# Functions

The functions of the query language with the types of their arguments and how often the last
argument may be given.

* `Signature.maxArgs?_exactly`: without repetition the number of arguments is fixed.
* `Signature.argType_of_lt`: an argument within the signature has the type that stands there.
-/

namespace PanelExport.Query

/-- How often the last argument may be given. -/
inductive Repetition where
  /-- Once. -/
  | exactly
  /-- Not at all, or up to so many times. -/
  | upTo (times : Nat)
  /-- Not at all, or any number of times. -/
  | unlimited
  deriving DecidableEq

/-- The name, argument types and result type of a function. -/
structure Signature where
  name : String
  argTypes : List ValueType
  returns : ValueType
  repetition : Repetition
  deriving DecidableEq

namespace Signature

/-- The least number of arguments. -/
def minArgs (s : Signature) : Nat :=
  match s.repetition with
  | .exactly => s.argTypes.length
  | _ => s.argTypes.length - 1

/-- The greatest number of arguments, if there is one. -/
def maxArgs? (s : Signature) : Option Nat :=
  match s.repetition with
  | .exactly => some s.argTypes.length
  | .upTo times => some (s.argTypes.length + times - 1)
  | .unlimited => none

theorem maxArgs?_exactly {s : Signature} (h : s.repetition = .exactly) :
    s.maxArgs? = some s.minArgs := by
  simp [maxArgs?, minArgs, h]

/-- The type of an argument; past the end it is the type of the last one. -/
def argType? (s : Signature) (index : Nat) : Option ValueType :=
  s.argTypes[min index (s.argTypes.length - 1)]?

theorem argType_of_lt {s : Signature} {index : Nat} (h : index < s.argTypes.length) :
    s.argType? index = some s.argTypes[index] := by
  have : min index (s.argTypes.length - 1) = index := by omega
  simp [argType?, this, h]

/-- A function from vectors to a vector with a fixed number of arguments. -/
def fixed (name : String) (argTypes : List ValueType) : Signature :=
  ⟨name, argTypes, .instant, .exactly⟩

/-- A function of one vector, which may be left out. -/
def optional (name : String) : Signature :=
  ⟨name, [.instant], .instant, .upTo 1⟩

end Signature

open Signature

/-- All functions, by name. -/
def signatures : List Signature := [
  fixed "abs" [.instant],
  fixed "absent" [.instant],
  fixed "absent_over_time" [.range],
  fixed "acos" [.instant],
  fixed "acosh" [.instant],
  fixed "asin" [.instant],
  fixed "asinh" [.instant],
  fixed "atan" [.instant],
  fixed "atanh" [.instant],
  fixed "avg_over_time" [.range],
  fixed "ceil" [.instant],
  fixed "changes" [.range],
  fixed "clamp" [.instant, .scalar, .scalar],
  fixed "clamp_max" [.instant, .scalar],
  fixed "clamp_min" [.instant, .scalar],
  fixed "cos" [.instant],
  fixed "cosh" [.instant],
  fixed "count_over_time" [.range],
  optional "day_of_month",
  optional "day_of_week",
  optional "day_of_year",
  optional "days_in_month",
  fixed "deg" [.instant],
  fixed "delta" [.range],
  fixed "deriv" [.range],
  fixed "double_exponential_smoothing" [.range, .scalar, .scalar],
  fixed "exp" [.instant],
  fixed "floor" [.instant],
  fixed "histogram_avg" [.instant],
  fixed "histogram_count" [.instant],
  fixed "histogram_fraction" [.scalar, .scalar, .instant],
  fixed "histogram_quantile" [.scalar, .instant],
  fixed "histogram_stddev" [.instant],
  fixed "histogram_stdvar" [.instant],
  fixed "histogram_sum" [.instant],
  fixed "holt_winters" [.range, .scalar, .scalar],
  optional "hour",
  fixed "idelta" [.range],
  fixed "increase" [.range],
  fixed "irate" [.range],
  ⟨"label_join", [.instant, .text, .text, .text], .instant, .unlimited⟩,
  fixed "label_replace" [.instant, .text, .text, .text, .text],
  fixed "last_over_time" [.range],
  fixed "ln" [.instant],
  fixed "log10" [.instant],
  fixed "log2" [.instant],
  fixed "mad_over_time" [.range],
  fixed "max_over_time" [.range],
  fixed "min_over_time" [.range],
  optional "minute",
  optional "month",
  ⟨"pi", [], .scalar, .exactly⟩,
  fixed "predict_linear" [.range, .scalar],
  fixed "present_over_time" [.range],
  fixed "quantile_over_time" [.scalar, .range],
  fixed "rad" [.instant],
  fixed "rate" [.range],
  fixed "resets" [.range],
  ⟨"round", [.instant, .scalar], .instant, .upTo 1⟩,
  ⟨"scalar", [.instant], .scalar, .exactly⟩,
  fixed "sgn" [.instant],
  fixed "sin" [.instant],
  fixed "sinh" [.instant],
  fixed "sort" [.instant],
  ⟨"sort_by_label", [.instant, .text], .instant, .unlimited⟩,
  ⟨"sort_by_label_desc", [.instant, .text], .instant, .unlimited⟩,
  fixed "sort_desc" [.instant],
  fixed "sqrt" [.instant],
  fixed "stddev_over_time" [.range],
  fixed "stdvar_over_time" [.range],
  fixed "sum_over_time" [.range],
  fixed "tan" [.instant],
  fixed "tanh" [.instant],
  ⟨"time", [], .scalar, .exactly⟩,
  fixed "timestamp" [.instant],
  fixed "vector" [.scalar],
  optional "year"]

/-- The signature of a function. -/
def signature? (name : String) : Option Signature :=
  signatures.find? fun s => s.name == name

end PanelExport.Query
