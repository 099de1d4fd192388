import PanelExport.Query.Expr
import PanelExport.Query.Lexer
import PanelExport.Text.Wording

/-!
# Faults of a query

Why a text is no query, as causes with a place, and their wording. A number that cannot take its
form is no fault of the grammar and has no place.
-/

namespace PanelExport.Query

/-- A part of the grammar, for messages. -/
inductive Place where
  | paren
  | matching
  | vectorMatching
  | groupingModifier
  | groupingClause
  | aggregation
  | call
  | range
  | subquery
  | matrix
  | offset
  | atModifier
  | timestamp
  deriving DecidableEq

/-- What a message calls a part of the grammar. -/
def Place.label : Place → String
  | .paren => "paren expression"
  | .matching => "label matching"
  | .vectorMatching => "vector matching"
  | .groupingModifier => "grouping modifier"
  | .groupingClause => "grouping opts"
  | .aggregation => "aggregation"
  | .call => "function call"
  | .range => "range"
  | .subquery => "subquery selector"
  | .matrix => "matrix selector"
  | .offset => "offset"
  | .atModifier => "@ modifier"
  | .timestamp => "@"

/-- What the grammar asks for at a place. -/
inductive Expected where
  | kind (k : Kind)
  | separator (close : Kind)
  | matchOperator
  | label
  | timestamp
  deriving DecidableEq

/-- What a message calls the expected token. -/
def Expected.wording : Expected → String
  | .kind k => "\"" ++ k.label ++ "\""
  | .separator close => "\",\" or \"" ++ close.label ++ "\""
  | .matchOperator => "label matching operator"
  | .label => "label"
  | .timestamp => "timestamp"

/-- The modifiers of a selector. -/
inductive Modifier where
  | offset
  | atSign
  deriving DecidableEq

/-- What a message calls a modifier. -/
def Modifier.label : Modifier → String
  | .offset => "offset"
  | .atSign => "@"

/-- Why a text is no query. -/
inductive ParseCause where
  | lexical (cause : LexCause)
  | tooDeep
  | noExpression
  | unexpected (found : Token)
  | unexpectedIn (found : Token) (place : Place) (expected : Expected)
  | boolModifier
  | groupingOfSets (op : BinaryOp)
  | operandTypes
  | comparisonOfScalars
  | setOperatorOnScalar (op : BinaryOp)
  | signedType
  | modifierBeforeRange (m : Modifier)
  | modifierTarget (m : Modifier)
  | modifierRepeated (m : Modifier)
  | subqueryType (found : ValueType)
  | rangeTarget
  | nameSetTwice (name value : String)
  | quotedNameSetTwice
  | emptySelector
  | groupedTwice
  | aggregateArity (expected found : Nat)
  | parameterType (expected found : ValueType)
  | aggregateType (found : ValueType)
  | unknownFunction (name : String)
  | tooFewArguments (least : Nat) (function : String) (found : Nat)
  | tooManyArguments (greatest : Nat) (function : String) (found : Nat)
  | argumentType (expected : ValueType) (function : String) (found : ValueType)
  deriving DecidableEq

/-- The wording of a cause. -/
def ParseCause.message : ParseCause → String
  | .lexical cause => cause.message
  | .tooDeep => "expression nested too deeply"
  | .noExpression => "no expression found in input"
  | .unexpected found => "unexpected " ++ found.describe
  | .unexpectedIn found place expected =>
    "unexpected " ++ found.describe ++ " in " ++ place.label ++ ", expected " ++ expected.wording
  | .boolModifier => "bool modifier can only be used on comparison operators"
  | .groupingOfSets op => "no grouping allowed for \"" ++ op.symbol ++ "\" operation"
  | .operandTypes => "binary expression must contain only scalar and instant vector types"
  | .comparisonOfScalars => "comparisons between scalars must use BOOL modifier"
  | .setOperatorOnScalar op =>
    "set operator \"" ++ op.symbol ++ "\" not allowed in binary scalar expression"
  | .signedType =>
    "unary expression only allowed on expressions of type scalar or instant vector"
  | .modifierBeforeRange m => "no " ++ m.label ++ " modifiers allowed before range"
  | .modifierTarget m =>
    m.label ++ " modifier must be preceded by an instant vector selector " ++
      "or range vector selector or a subquery"
  | .modifierRepeated m =>
    (match m with
      | .offset => "offset"
      | .atSign => "@ <timestamp>") ++ " may not be set multiple times"
  | .subqueryType found => "subquery is only allowed on instant vector, got " ++ found.label
  | .rangeTarget => "ranges only allowed for vector selectors"
  | .nameSetTwice name value =>
    "metric name must not be set twice: \"" ++ name ++ "\" or \"" ++ value ++ "\""
  | .quotedNameSetTwice => "metric name must not be set twice"
  | .emptySelector => "vector selector must contain at least one non-empty matcher"
  | .groupedTwice => "aggregation must only contain one grouping clause"
  | .aggregateArity expected found =>
    "wrong number of arguments for aggregate expression provided, expected " ++
      toString expected ++ ", got " ++ toString found
  | .parameterType expected found =>
    "expected type " ++ expected.label ++ " in aggregation parameter, got " ++ found.label
  | .aggregateType found =>
    "expected type instant vector in aggregation expression, got " ++ found.label
  | .unknownFunction name => "unknown function with name \"" ++ name ++ "\""
  | .tooFewArguments least function found =>
    "expected at least " ++ toString least ++ " argument(s) in call to \"" ++ function ++
      "\", got " ++ toString found
  | .tooManyArguments greatest function found =>
    "expected at most " ++ toString greatest ++ " argument(s) in call to \"" ++ function ++
      "\", got " ++ toString found
  | .argumentType expected function found =>
    "expected type " ++ expected.label ++ " in call to function \"" ++ function ++ "\", got " ++
      found.label

/-- A cause and the number of characters before it. -/
structure ParseError where
  cause : ParseCause
  pos : Nat
  deriving DecidableEq

/-- The wording of an error in a text, with its line and column. -/
def ParseError.message (e : ParseError) (text : String) : String :=
  let place := lineColumn text.toList e.pos
  toString place.line ++ ":" ++ toString place.column ++ ": parse error: " ++ e.cause.message

/-- Why a text gives no expression. -/
inductive Fault where
  | malformed (error : ParseError)
  | number (fault : NumberFault)
  deriving DecidableEq

end PanelExport.Query
