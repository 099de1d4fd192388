import PanelExport.Double.Shortest
import PanelExport.Proofs.Query.Rules

/-!
# Printing

The canonical text of a tree: its words with a blank between two. Labels and values are texts in
quotes, a grouping clause stands in front of the arguments and is never left out, and nothing is put
in parentheses that is not so in the tree. A number is written as its shortest decimal, one with a
sign as the sign and the number without it, and a whole number as that many seconds.

* `Expr.print`: the text of a tree.
* `Expr.Spellable`: the parts of a node can be written so that they read back.
* `Expr.Printable`: every node obeys the rules of the parser and can be written.
* `Expr.unplaced`: a tree without its places.
* `Expr.calls`: how many calls of the parser are open at once for a tree.
-/

namespace PanelExport.Query

/-! ## Words -/

/-- What a token stands for, and how it is written. -/
structure Word where
  kind : Kind
  value : String
  source : List Char

namespace Word

/-- A word that stands for itself. -/
def plain (kind : Kind) (value : String) : Word := ⟨kind, value, value.toList⟩

/-- A name or a word of the language. -/
def name (value : String) : Word := plain .identifier value

/-- A bracket, a comma or a colon. -/
def mark (kind : Kind) : Word := plain kind kind.label

/-- The characters of a text in quotes: a backslash stands before a quote and before a backslash,
and a newline is written as an n behind one. -/
def escape : List Char → List Char
  | [] => []
  | c :: cs =>
    if c = '\\' ∨ c = '"' then '\\' :: c :: escape cs
    else if c = '\n' then '\\' :: 'n' :: escape cs
    else c :: escape cs

/-- A text in double quotes. -/
def quoted (value : String) : Word := ⟨.text, value, '"' :: escape value.toList ++ ['"']⟩

end Word

/-- The word for an operator. -/
def BinaryOp.word (op : BinaryOp) : Word :=
  if op ∈ wordOperators then .name op.symbol else .plain .operator op.symbol

/-- The word for a sign. -/
def Sign.word (sign : Sign) : Word := .plain .operator sign.symbol

/-- The word for a number without a sign. -/
def doubleWord : Double → Word
  | .finite s m e h => .plain .number (Double.text (.finite s m e h))
  | x => .name x.text

/-- The words for a number. -/
def Number.words : Number → List Word
  | .whole n => [.plain .duration (toString n.natAbs ++ "s")]
  | .double x => if x.isNegative then [Sign.minus.word, doubleWord x.neg] else [doubleWord x]

/-- Items with commas between them. -/
def listed : List (List Word) → List Word
  | [] => []
  | [item] => item
  | item :: items => item ++ .mark .comma :: listed items

/-- The words with a blank between two. -/
def spaced : List Word → List Char
  | [] => []
  | [w] => w.source
  | w :: ws => w.source ++ ' ' :: spaced ws

/-- The words for a condition. -/
def Matcher.words (m : Matcher) : List Word :=
  [.quoted m.label, .plain .matcher m.op.symbol, .quoted m.value]

/-- The words for a selector. -/
def Selector.words (s : Selector) : List Word :=
  (if s.name = "" then [] else [.name s.name]) ++
    if s.matchers = [] then []
    else .mark .leftBrace :: listed (s.matchers.map Matcher.words) ++ [.mark .rightBrace]

/-- The words for a grouping clause. -/
def Grouping.words (g : Grouping) : List Word :=
  .name (if g.without then "without" else "by") :: .mark .leftParen ::
    listed (g.labels.map fun label => [.quoted label]) ++ [.mark .rightParen]

namespace Expr

mutual

/-- The words for a tree. -/
def words : Expr → List Word
  | .number _ value => value.words
  | .text _ value => [.quoted value]
  | .selector s => s.words
  | .matrix _ s range =>
    s.words ++ [.mark .leftBracket, .plain .duration range, .mark .rightBracket]
  | .subquery _ e range step? =>
    e.words ++ .mark .leftBracket :: .plain .duration range :: .mark .colon ::
      step?.toList.map (.plain .duration) ++ [.mark .rightBracket]
  | .call _ function args _ =>
    .name function :: .mark .leftParen :: listed (wordsOfAll args) ++ [.mark .rightParen]
  | .aggregate _ op e parameter? g =>
    .name op.name :: g.words ++ .mark .leftParen ::
      listed (wordsOfParameter parameter? ++ [e.words]) ++ [.mark .rightParen]
  | .binary _ op lhs rhs returnBool =>
    lhs.words ++ op.word :: (if returnBool then [.name "bool"] else []) ++ rhs.words
  | .unary _ sign e => sign.word :: e.words
  | .paren _ e => .mark .leftParen :: e.words ++ [.mark .rightParen]

/-- The words for some trees. -/
def wordsOfAll : List Expr → List (List Word)
  | [] => []
  | e :: es => e.words :: wordsOfAll es

/-- The words for a parameter, if there is one. -/
def wordsOfParameter : Option Expr → List (List Word)
  | none => []
  | some e => [e.words]

end

theorem wordsOfAll_eq (es : List Expr) : wordsOfAll es = es.map words := by
  induction es with
  | nil => rfl
  | cons e es ih => rw [wordsOfAll, ih, List.map_cons]

theorem wordsOfParameter_eq (parameter? : Option Expr) :
    wordsOfParameter parameter? = parameter?.toList.map words := by
  cases parameter? <;> rfl

/-- The text of a tree. -/
def print (e : Expr) : String := String.ofList (spaced e.words)

/-! ## Trees without places -/

mutual

/-- A tree with all its places at the start of the text. -/
def unplaced : Expr → Expr
  | .number _ value => .number 0 value
  | .text _ value => .text 0 value
  | .selector s => .selector { s with pos := 0 }
  | .matrix _ s range => .matrix 0 { s with pos := 0 } range
  | .subquery _ e range step? => .subquery 0 e.unplaced range step?
  | .call _ function args returns => .call 0 function (unplacedAll args) returns
  | .aggregate _ op e parameter? g =>
    .aggregate 0 op e.unplaced (unplacedParameter parameter?) g
  | .binary _ op lhs rhs returnBool => .binary 0 op lhs.unplaced rhs.unplaced returnBool
  | .unary _ sign e => .unary 0 sign e.unplaced
  | .paren _ e => .paren 0 e.unplaced

/-- Some trees without their places. -/
def unplacedAll : List Expr → List Expr
  | [] => []
  | e :: es => e.unplaced :: unplacedAll es

/-- A parameter without its places. -/
def unplacedParameter : Option Expr → Option Expr
  | none => none
  | some e => some e.unplaced

end

theorem unplacedAll_eq (es : List Expr) : unplacedAll es = es.map unplaced := by
  induction es with
  | nil => rfl
  | cons e es ih => rw [unplacedAll, ih, List.map_cons]

theorem unplacedParameter_eq (parameter? : Option Expr) :
    unplacedParameter parameter? = parameter?.map unplaced := by
  cases parameter? <;> rfl

/-- Two trees that differ in their places alone. -/
def Like (e f : Expr) : Prop := e.unplaced = f.unplaced

/-- The type of an expression does not depend on places. -/
theorem type_unplaced (e : Expr) : e.unplaced.type = e.type := by
  induction e using Expr.induction with
  | binary p op lhs rhs b ihl ihr => simp only [unplaced, type, ihl, ihr]
  | unary p sign e ih => simp only [unplaced, type, ih]
  | paren p e ih => simp only [unplaced, type, ih]
  | _ => rfl

/-! ## Calls -/

mutual

/-- How many calls of the parser are open at once while it reads the words of a tree as an
expression: two for an operand, more for what nests in it, and those for the types that are asked
for. -/
def calls : Expr → Nat
  | .number _ (.whole _) => 2
  | .number _ (.double x) => if x.isNegative then 3 else 2
  | .text _ _ => 2
  | .selector _ => 2
  | .matrix _ _ _ => 2
  | .subquery _ e _ _ => max e.calls (e.typeCalls + 4)
  | .call _ _ args _ => callsOfAll args
  | .aggregate _ _ e parameter? _ => max (callsOfParameter parameter?) (e.calls + 5)
  | .binary _ _ lhs rhs _ =>
    max lhs.calls (max (rhs.calls + 1) (max lhs.typeCalls rhs.typeCalls + 2))
  | .unary _ _ e => e.calls + 1
  | .paren _ e => e.calls + 3

/-- The calls for a call with some arguments. -/
def callsOfAll : List Expr → Nat
  | [] => 2
  | e :: es => max (e.calls + 5) (callsOfAll es)

/-- The calls for an aggregation with a parameter, if there is one. -/
def callsOfParameter : Option Expr → Nat
  | none => 2
  | some e => e.calls + 5

end

/-- Arguments need two calls at least, even if there are none. -/
theorem two_le_callsOfAll (es : List Expr) : 2 ≤ callsOfAll es := by
  induction es with
  | nil => simp [callsOfAll]
  | cons e es ih => simp only [callsOfAll]; omega

/-- Every expression is read in an expression and an operand at least. -/
theorem two_le_calls (e : Expr) : 2 ≤ e.calls := by
  induction e using Expr.induction with
  | number p value =>
    cases value with
    | whole n => simp [calls]
    | double x => simp only [calls]; split <;> decide
  | call p function args returns ih => exact two_le_callsOfAll args
  | aggregate p op e parameter? g ih ihp => simp only [calls]; omega
  | subquery p e r step? ih => simp only [calls]; omega
  | binary p op lhs rhs b ihl ihr => simp only [calls]; omega
  | unary p sign e ih => simp only [calls]; omega
  | _ => simp [calls]

end Expr

/-! ## Trees that differ in their places -/

namespace Expr

/-- The number of calls for the type does not depend on places. -/
theorem typeCalls_unplaced (e : Expr) : e.unplaced.typeCalls = e.typeCalls := by
  induction e using Expr.induction with
  | binary p op lhs rhs b ihl ihr => simp only [unplaced, typeCalls, type_unplaced, ihl, ihr]
  | unary p sign e ih => simp only [unplaced, typeCalls, ih]
  | paren p e ih => simp only [unplaced, typeCalls, ih]
  | _ => rfl

theorem callsOfAll_map_unplaced {es : List Expr} (h : ∀ e ∈ es, e.unplaced.calls = e.calls) :
    callsOfAll (es.map unplaced) = callsOfAll es := by
  induction es with
  | nil => rfl
  | cons e es ih =>
    obtain ⟨he, hes⟩ := List.forall_mem_cons.1 h
    rw [List.map_cons, callsOfAll, he, ih hes, callsOfAll]

/-- The number of calls that an expression needs does not depend on places. -/
theorem calls_unplaced (e : Expr) : e.unplaced.calls = e.calls := by
  induction e using Expr.induction with
  | number p value => cases value <;> rfl
  | subquery p e range step? ih => simp only [unplaced, calls, typeCalls_unplaced, ih]
  | call p function args returns ih =>
    simp only [unplaced, calls, unplacedAll_eq, callsOfAll_map_unplaced ih]
  | aggregate p op e parameter? g ih ihp =>
    cases parameter? with
    | none => simp only [unplaced, calls, unplacedParameter, callsOfParameter, ih]
    | some a => simp only [unplaced, calls, unplacedParameter, callsOfParameter, ih, ihp a rfl]
  | binary p op lhs rhs b ihl ihr => simp only [unplaced, calls, typeCalls_unplaced, ihl, ihr]
  | unary p sign e ih => simp only [unplaced, calls, ih]
  | paren p e ih => simp only [unplaced, calls, ih]
  | _ => rfl

theorem rootOp?_unplaced (e : Expr) : e.unplaced.rootOp? = e.rootOp? := by
  cases e <;> rfl

theorem isNumber_unplaced (e : Expr) : e.unplaced.IsNumber ↔ e.IsNumber := by
  cases e <;> rfl

variable {e f : Expr}

theorem Like.isNumber_iff (h : e.Like f) : e.IsNumber ↔ f.IsNumber := by
  rw [← isNumber_unplaced e, ← isNumber_unplaced f, h]

/-- Trees that differ in their places have one type. -/
theorem Like.type_eq (h : e.Like f) : e.type = f.type := by
  rw [← type_unplaced e, ← type_unplaced f, h]

theorem Like.typeCalls_eq (h : e.Like f) : e.typeCalls = f.typeCalls := by
  rw [← typeCalls_unplaced e, ← typeCalls_unplaced f, h]

/-- Trees that differ in their places need as many calls. -/
theorem Like.calls_eq (h : e.Like f) : e.calls = f.calls := by
  rw [← calls_unplaced e, ← calls_unplaced f, h]

theorem Like.rootOp?_eq (h : e.Like f) : e.rootOp? = f.rootOp? := by
  rw [← rootOp?_unplaced e, ← rootOp?_unplaced f, h]

end Expr

/-! ## What can be written -/

/-- A text of chunks and nothing else. -/
def IsDuration (s : String) : Prop :=
  (spanChunks s.toList).1 ≠ [] ∧ (spanChunks s.toList).2 = []

/-- A number that can be written: any double, and a whole number that is not negative and has not
more digits than can be read. -/
def Number.Spellable : Number → Prop
  | .whole n => 0 ≤ n ∧ (toString n.natAbs).length ≤ digitLimit
  | .double _ => True

/-- A name of a metric that is not a word of the language nor of a number. -/
structure IsMetricName (s : String) : Prop where
  starts : ∃ c ∈ s.toList.head?, startsName c = true ∨ c = ':'
  continues : ∀ c ∈ s.toList, continuesName c = true ∨ c = ':'
  free : s.toLower ∉ reservedWords ∧ s.toLower ≠ "inf" ∧ s.toLower ≠ "nan"

/-- The parts of a node can be written so that they read back. -/
def Expr.Spellable : Expr → Prop
  | .number _ value => value.Spellable
  | .selector s => s.name = "" ∨ IsMetricName s.name
  | .matrix _ _ range => IsDuration range
  | .subquery _ e range step? =>
    (e.rootOp? = none ∧ ∀ p sign inner, e ≠ .unary p sign inner) ∧
      IsDuration range ∧ ∀ step ∈ step?, IsDuration step
  | _ => True

/-- A tree whose nodes obey the rules and can be written. -/
def Expr.Printable (e : Expr) : Prop :=
  e.All fun n => n.WellTyped ∧ n.Grouped ∧ n.Spellable

/-- A tree can be printed if its root and all trees below can. -/
theorem Expr.printable_iff {e : Expr} :
    e.Printable ↔ (e.WellTyped ∧ e.Grouped ∧ e.Spellable) ∧ ∀ c ∈ e.children, c.Printable :=
  all_iff

/-- What stands below a tree that can be printed can be printed too. -/
theorem Expr.Printable.child {e c : Expr} (h : e.Printable) (hc : c ∈ e.children) : c.Printable :=
  (printable_iff.1 h).2 c hc

end PanelExport.Query
