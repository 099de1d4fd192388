import PanelExport.Query.Duration

/-!
# Expressions

The syntax tree of a query. Every node keeps the place of the token that it is named for: the
operator of a binary expression, the first token of any other.
-/

namespace PanelExport.Query

/-- What an expression evaluates to. -/
inductive ValueType where
  | scalar
  | text
  | instant
  | range
  deriving DecidableEq

/-- What a message calls a type. -/
def ValueType.label : ValueType → String
  | .scalar => "scalar"
  | .text => "string"
  | .instant => "instant vector"
  | .range => "range vector"

/-- How a label matcher compares. -/
inductive MatchOp where
  | equal
  | notEqual
  | regex
  | notRegex
  deriving DecidableEq

/-- The spelling of a matcher's comparison. -/
def MatchOp.symbol : MatchOp → String
  | .equal => "="
  | .notEqual => "!="
  | .regex => "=~"
  | .notRegex => "!~"

/-- A condition on one label. -/
structure Matcher where
  label : String
  op : MatchOp
  value : String
  deriving DecidableEq

/-- The binary operators. -/
inductive BinaryOp where
  | or
  | and
  | unless
  | equal
  | notEqual
  | lessEqual
  | greaterEqual
  | less
  | greater
  | add
  | sub
  | mul
  | div
  | mod
  | atan2
  | pow
  deriving DecidableEq

namespace BinaryOp

/-- The spelling of an operator. -/
def symbol : BinaryOp → String
  | .or => "or"
  | .and => "and"
  | .unless => "unless"
  | .equal => "=="
  | .notEqual => "!="
  | .lessEqual => "<="
  | .greaterEqual => ">="
  | .less => "<"
  | .greater => ">"
  | .add => "+"
  | .sub => "-"
  | .mul => "*"
  | .div => "/"
  | .mod => "%"
  | .atan2 => "atan2"
  | .pow => "^"

/-- How tightly an operator binds. -/
def precedence : BinaryOp → Nat
  | .or => 1
  | .and | .unless => 2
  | .equal | .notEqual | .lessEqual | .greaterEqual | .less | .greater => 3
  | .add | .sub => 4
  | .mul | .div | .mod | .atan2 => 5
  | .pow => 6

/-- An operator that compares two values. -/
def isComparison : BinaryOp → Bool
  | .equal | .notEqual | .lessEqual | .greaterEqual | .less | .greater => true
  | _ => false

/-- An operator on sets of series. -/
def isSetOperator : BinaryOp → Bool
  | .or | .and | .unless => true
  | _ => false

/-- The least precedence that an operator may have in the right operand. Only the power groups to
the right. -/
def rightLevel (op : BinaryOp) : Nat :=
  if op = .pow then op.precedence else op.precedence + 1

end BinaryOp

/-- The aggregations. -/
inductive AggregateOp where
  | avg
  | bottomk
  | count
  | countValues
  | group
  | limitRatio
  | limitk
  | max
  | min
  | quantile
  | stddev
  | stdvar
  | sum
  | topk
  deriving DecidableEq

namespace AggregateOp

/-- The name of an aggregation. -/
def name : AggregateOp → String
  | .avg => "avg"
  | .bottomk => "bottomk"
  | .count => "count"
  | .countValues => "count_values"
  | .group => "group"
  | .limitRatio => "limit_ratio"
  | .limitk => "limitk"
  | .max => "max"
  | .min => "min"
  | .quantile => "quantile"
  | .stddev => "stddev"
  | .stdvar => "stdvar"
  | .sum => "sum"
  | .topk => "topk"

/-- All aggregations, by name. -/
def all : List AggregateOp :=
  [.avg, .bottomk, .count, .countValues, .group, .limitRatio, .limitk, .max, .min, .quantile,
    .stddev, .stdvar, .sum, .topk]

/-- The aggregation of a name. -/
def ofName? (name : String) : Option AggregateOp :=
  all.find? fun op => op.name == name

/-- The type of the parameter in front of the aggregated expression, for those that have one. -/
def parameter? : AggregateOp → Option ValueType
  | .bottomk | .limitRatio | .limitk | .quantile | .topk => some .scalar
  | .countValues => some .text
  | _ => none

end AggregateOp

/-- A sign in front of an expression. -/
inductive Sign where
  | plus
  | minus
  deriving DecidableEq

/-- The spelling of a sign. -/
def Sign.symbol : Sign → String
  | .plus => "+"
  | .minus => "-"

/-- A selection of series. A selector without a name starts at its brace. -/
structure Selector where
  pos : Nat
  name : String
  matchers : List Matcher
  deriving DecidableEq

/-- The labels that an aggregation groups by, or groups without. -/
structure Grouping where
  labels : List String
  without : Bool
  deriving DecidableEq

/-- No grouping clause groups by no label. -/
def Grouping.none : Grouping := ⟨[], false⟩

/-- A syntax tree. -/
inductive Expr where
  | number (pos : Nat) (value : Number)
  | text (pos : Nat) (value : String)
  | selector (s : Selector)
  | matrix (pos : Nat) (s : Selector) (range : String)
  | subquery (pos : Nat) (expr : Expr) (range : String) (step? : Option String)
  | call (pos : Nat) (function : String) (args : List Expr) (returns : ValueType)
  | aggregate (pos : Nat) (op : AggregateOp) (expr : Expr) (parameter? : Option Expr)
      (grouping : Grouping)
  | binary (pos : Nat) (op : BinaryOp) (lhs rhs : Expr) (returnBool : Bool)
  | unary (pos : Nat) (sign : Sign) (expr : Expr)
  | paren (pos : Nat) (expr : Expr)

namespace Expr

/-- The place of the token that a node is named for. -/
def pos : Expr → Nat
  | .number p _ => p
  | .text p _ => p
  | .selector s => s.pos
  | .matrix p _ _ => p
  | .subquery p _ _ _ => p
  | .call p _ _ _ => p
  | .aggregate p _ _ _ _ => p
  | .binary p _ _ _ _ => p
  | .unary p _ _ => p
  | .paren p _ => p

/-- The type of an expression. -/
def type : Expr → ValueType
  | .number _ _ => .scalar
  | .text _ _ => .text
  | .selector _ => .instant
  | .matrix _ _ _ => .range
  | .subquery _ _ _ _ => .range
  | .call _ _ _ returns => returns
  | .aggregate _ _ _ _ _ => .instant
  | .binary _ _ lhs rhs _ =>
    if lhs.type = .scalar ∧ rhs.type = .scalar then .scalar else .instant
  | .unary _ _ e => e.type
  | .paren _ e => e.type

/-- The expressions directly below a node, from left to right. -/
def children : Expr → List Expr
  | .number _ _ => []
  | .text _ _ => []
  | .selector _ => []
  | .matrix _ s _ => [.selector s]
  | .subquery _ e _ _ => [e]
  | .call _ _ args _ => args
  | .aggregate _ _ e parameter? _ => parameter?.toList ++ [e]
  | .binary _ _ lhs rhs _ => [lhs, rhs]
  | .unary _ _ e => [e]
  | .paren _ e => [e]

/-! ## Listing the nodes -/

mutual

/-- A node and all below it, each before those below it, from left to right. -/
def listing : Expr → List Expr
  | .number p v => [.number p v]
  | .text p v => [.text p v]
  | .selector s => [.selector s]
  | .matrix p s r => [.matrix p s r, .selector s]
  | .subquery p e r s => .subquery p e r s :: e.listing
  | .call p f args t => .call p f args t :: listings args
  | .aggregate p op e parameter g =>
    .aggregate p op e parameter g :: (parameterListing parameter ++ e.listing)
  | .binary p op lhs rhs b => .binary p op lhs rhs b :: (lhs.listing ++ rhs.listing)
  | .unary p s e => .unary p s e :: e.listing
  | .paren p e => .paren p e :: e.listing

/-- The listings of some trees, one after the other. -/
def listings : List Expr → List Expr
  | [] => []
  | e :: es => e.listing ++ listings es

/-- The listing of a parameter, if there is one. -/
def parameterListing : Option Expr → List Expr
  | none => []
  | some e => e.listing

end

/-- The number of nodes. -/
def weight (e : Expr) : Nat := e.listing.length

/-- The nodes of all trees. -/
def totalWeight : List Expr → Nat
  | [] => 0
  | e :: es => e.weight + totalWeight es

theorem totalWeight_append (es fs : List Expr) :
    totalWeight (es ++ fs) = totalWeight es + totalWeight fs := by
  induction es with
  | nil => simp [totalWeight]
  | cons e es ih => simp only [List.cons_append, totalWeight, ih, Nat.add_assoc]

theorem length_listings (es : List Expr) : (listings es).length = totalWeight es := by
  induction es with
  | nil => rfl
  | cons e es ih => simp [listings, totalWeight, weight, ih]

theorem weight_eq (e : Expr) : e.weight = totalWeight e.children + 1 := by
  cases e with
  | call => simp [weight, listing, children, length_listings]
  | aggregate p op e parameter g =>
    cases parameter <;> simp [weight, listing, children, totalWeight, parameterListing]
  | _ => simp [weight, listing, children, totalWeight]

/-- The nodes in the order in which a stack gives them: the next one is taken off the stack, and
the ones directly below it are put there. -/
def walkStack : List Expr → List Expr
  | [] => []
  | e :: stack => e :: walkStack (e.children ++ stack)
termination_by stack => totalWeight stack
decreasing_by
  rw [totalWeight, totalWeight_append, weight_eq e]
  omega

/-- All nodes of a tree, in the order of the stack. -/
def walk (e : Expr) : List Expr :=
  walkStack [e]

end Expr

end PanelExport.Query
