import PanelExport.Query.Fault
import PanelExport.Query.Signature

/-!
# From tokens to expressions

The grammar of queries, with the rules that hold whatever the data: types, arities and the places of
modifiers. A parser takes an expression off the front of the tokens and returns the tokens left,
with a bound on their number. The end of the text is no token here; `stop` is its place.

What nests is read in calls inside calls, and only so many may be open at once. `operand` and
`expression` count down the calls that may still be opened; all other parsers are given the parsers
for what nests in them, and the number of calls that may be opened inside of their own. The type of
an expression is found in calls inside calls too, one for each node on the way down. A call is
counted if another counted one may be opened inside of it: one that looks at the tokens and returns
is not.

* `take?_eq_some`: a token is taken from the front, if it qualifies.
* `operand_zero`, `expression_zero`: where no call may be opened, nothing is parsed.
-/

namespace PanelExport.Query

/-- A value parsed off the front of some tokens, and the tokens left, of which there are fewer than
`bound`. -/
structure Parsed (α : Type) (bound : Nat) where
  value : α
  rest : List Token
  shorter : rest.length < bound

/-- A parser that takes at least one token. -/
abbrev Parser (α : Type) := (ts : List Token) → Except Fault (Parsed α ts.length)

/-- A parser that may take nothing. -/
abbrev OptionalParser (α : Type) := (ts : List Token) → Except Fault (Parsed α (ts.length + 1))

namespace Parsed

/-- The same value under a greater bound. -/
def widen {α : Type} {m n : Nat} (p : Parsed α m) (h : m ≤ n) : Parsed α n :=
  ⟨p.value, p.rest, Nat.lt_of_lt_of_le p.shorter h⟩

/-- Another value with the same tokens left. -/
def map {α β : Type} {n : Nat} (p : Parsed α n) (f : α → β) : Parsed β n :=
  ⟨f p.value, p.rest, p.shorter⟩

/-- A value for which no token was taken. -/
def stay {α : Type} (value : α) (ts : List Token) : Parsed α (ts.length + 1) :=
  ⟨value, ts, Nat.lt_succ_self _⟩

/-- What another parser made of the tokens that were left. -/
def andThen {α β : Type} {n : Nat} (p : Parsed α n) (q : Parsed β (p.rest.length + 1)) :
    Parsed β n :=
  q.widen p.shorter

end Parsed

/-- A fault at a place. -/
def fail {α : Type} (cause : ParseCause) (pos : Nat) : Except Fault α :=
  .error (.malformed ⟨cause, pos⟩)

/-- The first token, or the mark at the end of the text. -/
def current (stop : Nat) : List Token → Token
  | [] => .finish stop
  | t :: _ => t

/-- The first token, if it qualifies. -/
def take? (p : Token → Bool) : (ts : List Token) → Option (Parsed Token ts.length)
  | [] => none
  | t :: rest => if p t then some ⟨t, rest, Nat.lt_succ_self _⟩ else none

theorem take?_eq_some {p : Token → Bool} {t : Token} {rest : List Token} (h : p t = true) :
    take? p (t :: rest) = some ⟨t, rest, Nat.lt_succ_self _⟩ := by
  simp [take?, h]

/-- The first token has to be of this kind. -/
def expect (stop : Nat) (kind : Kind) (place : Place) : Parser Token := fun ts =>
  match take? (·.kind == kind) ts with
  | some t => .ok t
  | none =>
    let found := current stop ts
    fail (.unexpectedIn found place (.kind kind)) found.pos

/-- Items up to and with a closing token, with commas between them; a comma may also stand before
the closing token. -/
def separated {α : Type} (stop : Nat) (close : Kind) (place : Place) (item : Parser α) :
    Parser (List α) := fun ts =>
  match take? (·.kind == close) ts with
  | some t => .ok (t.map fun _ => [])
  | none => do
    let first ← item ts
    match take? (·.kind == .comma) first.rest with
    | some comma =>
      let more ← separated stop close place item comma.rest
      return ⟨first.value :: more.value, more.rest,
        Nat.lt_trans more.shorter (Nat.lt_trans comma.shorter first.shorter)⟩
    | none =>
      match take? (·.kind == close) first.rest with
      | some t => return ⟨[first.value], t.rest, Nat.lt_trans t.shorter first.shorter⟩
      | none =>
        let found := current stop first.rest
        fail (.unexpectedIn found place (.separator close)) found.pos
termination_by ts => ts.length
decreasing_by exact Nat.lt_trans comma.shorter first.shorter

/-! ## Labels and selectors -/

/-- The label that keeps the name of a metric. -/
def metricNameLabel : String := "__name__"

/-- A label, as a name or in quotes. -/
def label (stop : Nat) (place : Place) : Parser String := fun ts =>
  match take? (fun t => t.kind == .identifier || t.kind == .text) ts with
  | some t => .ok (t.map (·.value))
  | none =>
    let found := current stop ts
    fail (.unexpectedIn found place .label) found.pos

/-- Labels in parentheses. -/
def labelList (stop : Nat) (place : Place) : Parser (List String) := fun ts => do
  let opening ← expect stop .leftParen place ts
  let labels ← separated stop .rightParen place (label stop place) opening.rest
  return labels.widen (Nat.le_of_lt opening.shorter)

/-- The comparison with this spelling. -/
def MatchOp.ofSymbol? (symbol : String) : Option MatchOp :=
  [MatchOp.equal, .notEqual, .regex, .notRegex].find? fun op => op.symbol == symbol

/-- The comparison that a token stands for. -/
def matchOp? (t : Token) : Option MatchOp :=
  if t.kind = .matcher then MatchOp.ofSymbol? t.value else none

/-- The metric's name on its own, in quotes; it needs a selector without a name. -/
def quotedName? (stop : Nat) (name : String) (ts : List Token) :
    Option (Except Fault (Parsed Matcher ts.length)) := do
  let t ← take? (·.kind == .text) ts
  let next := (current stop t.rest).kind
  if next = .comma ∨ next = .rightBrace then
    some (if name.isEmpty then .ok (t.map fun t => ⟨metricNameLabel, .equal, t.value⟩)
      else fail .quotedNameSetTwice t.value.pos)
  else none

/-- A condition on a label of a selector with this name. -/
def matcher (stop : Nat) (name : String) : Parser Matcher := fun ts =>
  let noOperator {α : Type} (ts : List Token) : Except Fault α :=
    let found := current stop ts
    fail (.unexpectedIn found .matching .matchOperator) found.pos
  match quotedName? stop name ts with
  | some result => result
  | none =>
    match take? (fun t => t.kind == .identifier || t.kind == .text) ts with
    | none => noOperator ts
    | some label =>
      match take? (fun t => (matchOp? t).isSome) label.rest with
      | none => noOperator label.rest
      | some op => do
        let value ← expect stop .text .matching op.rest
        return ⟨⟨label.value.value, (matchOp? op.value).getD .equal, value.value.value⟩,
          value.rest, Nat.lt_trans value.shorter (Nat.lt_trans op.shorter label.shorter)⟩

/-- A condition that a series without the label does not meet. -/
def Matcher.excludesEmpty (m : Matcher) : Bool :=
  match m.op with
  | .equal => m.value != ""
  | .regex => m.value != "" && m.value != ".*"
  | _ => false

/-- A selector has one name at most and selects not just everything. -/
def checkSelector (s : Selector) : Except Fault Selector :=
  match s.matchers.find? fun m => m.label == metricNameLabel && !s.name.isEmpty with
  | some m => fail (.nameSetTwice s.name m.value) s.pos
  | none =>
    if s.name.isEmpty && !s.matchers.any Matcher.excludesEmpty then fail .emptySelector s.pos
    else .ok s

/-- A selector, past the brace in front of its conditions. -/
def conditions (stop pos : Nat) (name : String) : Parser Selector := fun ts => do
  let matchers ← separated stop .rightBrace .matching (matcher stop name) ts
  let s ← checkSelector ⟨pos, name, matchers.value⟩
  return matchers.map fun _ => s

/-- A selector, past its name; the conditions may be missing. -/
def selector (stop pos : Nat) (name : String) : OptionalParser Selector := fun ts =>
  match take? (·.kind == .leftBrace) ts with
  | none => do return .stay (← checkSelector ⟨pos, name, []⟩) ts
  | some brace => do
    let s ← conditions stop pos name brace.rest
    return (brace.andThen (s.widen (Nat.le_succ _))).widen (Nat.le_succ _)

/-! ## Types -/

/-- The type of an expression, if it is found with so many calls open at once. A binary expression
looks at its right operand only if the left one is a scalar. -/
def Expr.typeWithin : Nat → Expr → Except Fault ValueType
  | 0, _ => fail .tooDeep 0
  | calls + 1, .binary _ _ lhs rhs _ => do
    if (← lhs.typeWithin calls) = .scalar then
      return if (← rhs.typeWithin calls) = .scalar then .scalar else .instant
    else return .instant
  | calls + 1, .unary _ _ e => e.typeWithin calls
  | calls + 1, .paren _ e => e.typeWithin calls
  | _ + 1, e => .ok e.type

/-! ## Modifiers and ranges -/

/-- The sign that a token stands for. -/
def sign? (t : Token) : Option Sign :=
  if t.kind = .operator then
    if t.value = "+" then some .plus else if t.value = "-" then some .minus else none
  else none

/-- A time behind an at sign: a number, perhaps signed, or one of the ends of the query's range. -/
def timestamp (stop : Nat) : Parser Unit := fun ts =>
  match take? (·.kind == .number) ts with
  | some t => .ok (t.map fun _ => ())
  | none =>
    match take? (fun t => (sign? t).isSome) ts with
    | some sign => do
      let t ← expect stop .number .atModifier sign.rest
      return ⟨(), t.rest, Nat.lt_trans t.shorter sign.shorter⟩
    | none =>
      match take? (·.isWord ["start", "end"]) ts with
      | some word => do
        let opening ← expect stop .leftParen .atModifier word.rest
        let closing ← expect stop .rightParen .atModifier opening.rest
        return ⟨(), closing.rest,
          Nat.lt_trans closing.shorter (Nat.lt_trans opening.shorter word.shorter)⟩
      | none =>
        let found := current stop ts
        fail (.unexpectedIn found .timestamp .timestamp) found.pos

/-- A duration behind the word for an offset, perhaps signed. -/
def offset (stop : Nat) : Parser Unit := fun ts =>
  match take? (fun t => (sign? t).isSome) ts with
  | some sign => do
    let t ← expect stop .duration .offset sign.rest
    return ⟨(), t.rest, Nat.lt_trans t.shorter sign.shorter⟩
  | none => do return (← expect stop .duration .offset ts).map fun _ => ()

/-- The modifiers that stand behind a node since its last range. -/
structure Modifiers where
  offset : Bool
  atSign : Bool
  deriving DecidableEq

/-- No modifier. -/
def Modifiers.none : Modifiers := ⟨false, false⟩

/-- The modifier that a range may not follow. -/
def Modifiers.first? (ms : Modifiers) : Option Modifier :=
  if ms.offset then some .offset else if ms.atSign then some .atSign else .none

/-- A modifier stands at most once behind a selector or a range. -/
def Modifiers.insert (ms : Modifiers) (m : Modifier) (node : Expr) (pos : Nat) :
    Except Fault Modifiers :=
  let fits := match node with
    | .selector _ | .matrix _ _ _ | .subquery _ _ _ _ => true
    | _ => false
  let present := match m with
    | .offset => ms.offset
    | .atSign => ms.atSign
  if !fits then fail (.modifierTarget m) pos
  else if present then fail (.modifierRepeated m) pos
  else match m with
    | .offset => .ok { ms with offset := true }
    | .atSign => .ok { ms with atSign := true }

/-- The step of a subquery, which may be missing. -/
def subqueryStep (ts : List Token) : Parsed (Option String) (ts.length + 1) :=
  match take? (·.kind == .duration) ts with
  | some step => (step.map fun t => some t.value).widen (Nat.le_succ _)
  | none => .stay none ts

/-- A range or a subquery on a node, past the opening bracket at `start`. -/
def range (stop calls start : Nat) (node : Expr) : Parser Expr := fun ts => do
  let range ← expect stop .duration .range ts
  match take? (·.kind == .colon) range.rest with
  | some colon =>
    let step := subqueryStep colon.rest
    let closing ← expect stop .rightBracket .subquery step.rest
    let type ← node.typeWithin calls
    if type = .instant then
      return ⟨.subquery node.pos node range.value.value step.value, closing.rest,
        Nat.lt_trans (colon.andThen (step.andThen (closing.widen (Nat.le_succ _)))).shorter
          range.shorter⟩
    else fail (.subqueryType type) start
  | none =>
    let closing ← expect stop .rightBracket .matrix range.rest
    match node with
    | .selector s =>
      return ⟨.matrix s.pos s range.value.value, closing.rest,
        Nat.lt_trans closing.shorter range.shorter⟩
    | _ => fail .rangeTarget start

/-- A colon in the third place tells a subquery from a range. -/
def startsSubquery (ts : List Token) : Bool :=
  (ts.drop 2).head?.any (·.kind == .colon)

/-- A bracket may follow a selector with modifiers only if it opens a subquery. -/
def checkRange (ms : Modifiers) (node : Expr) (pos : Nat) (ts : List Token) :
    Except Fault Unit :=
  match node, ms.first? with
  | .selector _, some m => if startsSubquery ts then .ok () else fail (.modifierBeforeRange m) pos
  | _, _ => .ok ()

/-- Ranges and modifiers behind a node. -/
def suffixes (stop calls : Nat) (node : Expr) (ms : Modifiers) : OptionalParser Expr := fun ts =>
  match take? (·.kind == .leftBracket) ts with
  | some bracket => do
    checkRange ms node bracket.value.pos ts
    let inner ← range stop (calls - 1) bracket.value.pos node bracket.rest
    let outer ← suffixes stop calls inner.value .none inner.rest
    return (bracket.andThen ((inner.andThen outer).widen (Nat.le_succ _))).widen (Nat.le_succ _)
  | none =>
    match take? (·.isWord ["offset"]) ts with
    | some word => do
      let ms ← ms.insert .offset node word.value.pos
      let amount ← offset stop word.rest
      let outer ← suffixes stop calls node ms amount.rest
      return (word.andThen ((amount.andThen outer).widen (Nat.le_succ _))).widen (Nat.le_succ _)
    | none =>
      match take? (·.kind == .atSign) ts with
      | some sign => do
        let ms ← ms.insert .atSign node sign.value.pos
        let time ← timestamp stop sign.rest
        let outer ← suffixes stop calls node ms time.rest
        return (sign.andThen ((time.andThen outer).widen (Nat.le_succ _))).widen (Nat.le_succ _)
      | none => .ok (.stay node ts)
termination_by ts => ts.length
decreasing_by
  · exact Nat.lt_trans inner.shorter bracket.shorter
  · exact Nat.lt_trans amount.shorter word.shorter
  · exact Nat.lt_trans time.shorter sign.shorter

/-! ## Binary expressions -/

/-- The operators that are written as words. -/
def wordOperators : List BinaryOp := [.and, .or, .unless, .atan2]

/-- The operators that are written as signs. -/
def signOperators : List BinaryOp :=
  [.equal, .notEqual, .lessEqual, .greaterEqual, .less, .greater, .add, .sub, .mul, .div, .mod,
    .pow]

/-- The binary operator that a token stands for. -/
def binaryOp? (t : Token) : Option BinaryOp :=
  match t.kind with
  | .operator => signOperators.find? fun op => op.symbol == t.value
  | .identifier => wordOperators.find? fun op => op.symbol == t.value.toLower
  | _ => none

/-- The word that makes a comparison return a truth value, if it stands there. -/
def boolModifier (op : BinaryOp) : OptionalParser Bool := fun ts =>
  match take? (·.isWord ["bool"]) ts with
  | none => .ok (.stay false ts)
  | some word =>
    if op.isComparison then .ok ((word.map fun _ => true).widen (Nat.le_succ _))
    else fail .boolModifier word.value.pos

/-- How the series of the two sides are matched, if that is said. It leaves no trace. -/
def vectorMatching (stop : Nat) (op : BinaryOp) : OptionalParser Unit := fun ts =>
  match take? (·.isWord ["on", "ignoring"]) ts with
  | none => .ok (.stay () ts)
  | some word => do
    let labels ← labelList stop .vectorMatching word.rest
    let labels := word.andThen (labels.widen (Nat.le_succ _))
    match take? (·.isWord ["group_left", "group_right"]) labels.rest with
    | none => return (labels.map fun _ => ()).widen (Nat.le_succ _)
    | some group =>
      if op.isSetOperator then fail (.groupingOfSets op) group.value.pos
      else
        let group := labels.andThen (group.widen (Nat.le_succ _))
        match take? (·.kind == .leftParen) group.rest with
        | none => return (group.map fun _ => ()).widen (Nat.le_succ _)
        | some _ =>
          let included ← labelList stop .groupingModifier group.rest
          return ((group.andThen (included.widen (Nat.le_succ _))).map fun _ => ()).widen
            (Nat.le_succ _)

/-- A type that an operand of an operator may have. -/
def ValueType.isOperand (t : ValueType) : Bool :=
  t == .scalar || t == .instant

/-- The type of an operand of the operator at a place. -/
def operandType (calls pos : Nat) (e : Expr) : Except Fault ValueType := do
  let type ← e.typeWithin calls
  if type.isOperand then return type else fail .operandTypes pos

/-- The typing rules of binary expressions. -/
def checkBinary (calls pos : Nat) (op : BinaryOp) (lhs rhs : Expr) (returnBool : Bool) :
    Except Fault Expr := do
  let left ← operandType calls pos lhs
  let right ← operandType calls pos rhs
  if op.isComparison && left == .scalar && right == .scalar && !returnBool then
    fail .comparisonOfScalars pos
  else if op.isSetOperator && (left == .scalar || right == .scalar) then
    fail (.setOperatorOnScalar op) pos
  else return .binary pos op lhs rhs returnBool

/-- The operators and right operands that follow a left operand, as long as the operators bind at
least as tightly as `level`. -/
def climb (stop calls : Nat) (expression : Nat → Parser Expr) (level : Nat) (lhs : Expr) :
    OptionalParser Expr := fun ts =>
  match ts with
  | [] => .ok (.stay lhs [])
  | t :: rest =>
    match binaryOp? t with
    | none => .ok (.stay lhs (t :: rest))
    | some op =>
      if op.precedence < level then .ok (.stay lhs (t :: rest))
      else do
        let returnBool ← boolModifier op rest
        let matching ← vectorMatching stop op returnBool.rest
        let rhs ← expression op.rightLevel matching.rest
        let node ← checkBinary (calls - 1) t.pos op lhs rhs.value returnBool.value
        have fewer : rhs.rest.length < rest.length + 1 := by
          have h₁ := returnBool.shorter
          have h₂ := matching.shorter
          have h₃ := rhs.shorter
          omega
        let outer ← climb stop calls expression level node rhs.rest
        return outer.widen (Nat.le_succ_of_le fewer)
termination_by ts => ts.length
decreasing_by exact fewer

/-! ## Calls and aggregations -/

/-- The first argument whose type is not the expected one, with the expected type. -/
def wrongArgument? (s : Signature) : Nat → List Expr → Option (ValueType × Expr)
  | _, [] => none
  | index, arg :: args =>
    match s.argType? index with
    | some expected =>
      if arg.type = expected then wrongArgument? s (index + 1) args else some (expected, arg)
    | none => wrongArgument? s (index + 1) args

/-- The number and types of the arguments of a call. No more calls are open when the type of an
argument is found than when the argument was read, so they need not be counted. -/
def checkCall (pos : Nat) (s : Signature) (args : List Expr) : Except Fault Expr :=
  if args.length < s.minArgs then
    fail (.tooFewArguments s.minArgs s.name args.length) pos
  else match s.maxArgs?.filter (· < args.length) with
    | some greatest => fail (.tooManyArguments greatest s.name args.length) pos
    | none =>
      match wrongArgument? s 0 args with
      | some (expected, arg) => fail (.argumentType expected s.name arg.type) arg.pos
      | none => .ok (.call pos s.name args s.returns)

/-- A call, past the name of its function. -/
def call (stop : Nat) (argument : Parser Expr) (function : Token) : Parser Expr := fun ts =>
  match signature? function.value with
  | none => fail (.unknownFunction function.value) function.pos
  | some s => do
    let opening ← expect stop .leftParen .call ts
    let args ← separated stop .rightParen .call argument opening.rest
    let node ← checkCall function.pos s args.value
    return ⟨node, args.rest, Nat.lt_trans args.shorter opening.shorter⟩

/-- A grouping clause, if there is one. -/
def grouping (stop : Nat) : OptionalParser (Option Grouping) := fun ts =>
  match take? (·.isWord ["by", "without"]) ts with
  | none => .ok (.stay none ts)
  | some word => do
    let labels ← labelList stop .groupingClause word.rest
    return ⟨some ⟨labels.value, word.value.value.toLower == "without"⟩, labels.rest,
      Nat.lt_succ_of_lt (Nat.lt_trans labels.shorter word.shorter)⟩

/-- The number and types of the arguments of an aggregation. -/
def checkAggregate (pos : Nat) (op : AggregateOp) (g : Grouping) (args : List Expr) :
    Except Fault Expr :=
  let checked (e : Expr) (parameter? : Option Expr) : Except Fault Expr :=
    if e.type = .instant then .ok (.aggregate pos op e parameter? g)
    else fail (.aggregateType e.type) e.pos
  match op.parameter?, args with
  | none, [e] => checked e none
  | none, _ => fail (.aggregateArity 1 args.length) pos
  | some expected, [p, e] =>
    if p.type = expected then checked e (some p)
    else fail (.parameterType expected p.type) p.pos
  | some _, _ => fail (.aggregateArity 2 args.length) pos

/-- An aggregation, past its name; the grouping clause stands on either side of the arguments. -/
def aggregation (stop : Nat) (argument : Parser Expr) (pos : Nat) (op : AggregateOp) :
    Parser Expr := fun ts => do
  let leading ← grouping stop ts
  let opening ← expect stop .leftParen .aggregation leading.rest
  let args ← separated stop .rightParen .aggregation argument opening.rest
  let trailing ← grouping stop args.rest
  if leading.value.isSome && trailing.value.isSome then fail .groupedTwice pos
  else
    let g := (leading.value.or trailing.value).getD .none
    let node ← checkAggregate pos op g args.value
    return ⟨node, trailing.rest, by
      have h₁ := leading.shorter
      have h₂ := opening.shorter
      have h₃ := args.shorter
      have h₄ := trailing.shorter
      omega⟩

/-! ## Operands -/

/-- The words that cannot name a metric. -/
def reservedWords : List String :=
  ["and", "or", "unless", "atan2", "by", "without", "on", "ignoring", "bool", "offset"]

/-- An aggregation that a name starts, judged by the token behind it. -/
def aggregateStart? (name next : Token) : Option AggregateOp :=
  if next.kind = .leftParen ∨ next.isWord ["by", "without"] then
    AggregateOp.ofName? name.value.toLower
  else none

/-- The number that a word stands for. -/
def numberWord? (name : Token) : Option Double :=
  if name.value.toLower = "inf" then some (.infinite false)
  else if name.value.toLower = "nan" then some .nan
  else none

/-- What a name starts: an aggregation, a call, a number or a selector. -/
def named (stop : Nat) (argument : Parser Expr) (name : Token) :
    OptionalParser Expr := fun ts =>
  let next := current stop ts
  match aggregateStart? name next, numberWord? name with
  | some op, _ => do return (← aggregation stop argument name.pos op ts).widen (Nat.le_succ _)
  | none, number? =>
    if next.kind = .leftParen then do
      return (← call stop argument name ts).widen (Nat.le_succ _)
    else match number? with
      | some x => .ok (.stay (.number name.pos (.double x)) ts)
      | none =>
        if name.value.toLower ∈ reservedWords then fail (.unexpected name) name.pos
        else do return (← selector stop name.pos name.value ts).map .selector

/-- A number, a text, an expression in parentheses, or what a name or a brace starts. What nests in
parentheses is one call further in, an argument three: that for the name and that for the arguments
are open as well. -/
def primary (stop : Nat) (nested : Nat → Parser Expr) : Parser Expr := fun ts =>
  match ts with
  | [] => fail (.unexpected (.finish stop)) stop
  | t :: rest =>
    match t.kind with
    | .number | .duration =>
      match numberValue t.value.toList with
      | .ok value => .ok ⟨.number t.pos value, rest, Nat.lt_succ_self _⟩
      | .error fault => .error (.number fault)
    | .text => .ok ⟨.text t.pos t.value, rest, Nat.lt_succ_self _⟩
    | .leftParen => do
      let inner ← nested 1 rest
      let closing ← expect stop .rightParen .paren inner.rest
      return ⟨.paren t.pos inner.value, closing.rest,
        Nat.lt_succ_of_lt (Nat.lt_trans closing.shorter inner.shorter)⟩
    | .leftBrace => do
      let s ← conditions stop t.pos "" rest
      return ⟨.selector s.value, s.rest, Nat.lt_succ_of_lt s.shorter⟩
    | .identifier => named stop (nested 3) t rest
    | _ => fail (.unexpected t) t.pos

/-- A sign keeps a number a number. As with an argument, the calls for the type of the operand are
not more than those for reading it. -/
def applySign (pos : Nat) (sign : Sign) (e : Expr) : Except Fault Expr :=
  if !e.type.isOperand then fail .signedType pos
  else match e with
    | .number _ value =>
      match value.signed (sign == .minus) with
      | .ok value => .ok (.number pos value)
      | .error fault => .error (.number fault)
    | e => .ok (.unary pos sign e)

/-- A signed operand, or a primary with what stands behind it. -/
def operandWith (stop calls : Nat) (operand : Parser Expr) (nested : Nat → Parser Expr) :
    Parser Expr := fun ts =>
  match take? (fun t => (sign? t).isSome) ts with
  | some sign => do
    let e ← operand sign.rest
    let node ← applySign sign.value.pos ((sign? sign.value).getD .plus) e.value
    return ⟨node, e.rest, Nat.lt_trans e.shorter sign.shorter⟩
  | none => do
    let inner ← primary stop nested ts
    return inner.andThen (← suffixes stop (calls - 1) inner.value .none inner.rest)

/-- An operand and the operators that follow it. -/
def expressionWith (stop calls : Nat) (operand : Parser Expr) (expression : Nat → Parser Expr)
    (level : Nat) : Parser Expr := fun ts => do
  let lhs ← operand ts
  return lhs.andThen (← climb stop calls expression level lhs.value lhs.rest)

mutual

/-- An operand, read with so many calls open at once, its own included. -/
def operand (stop : Nat) : Nat → Parser Expr
  | 0 => fun _ => fail .tooDeep 0
  | calls + 1 =>
    operandWith stop calls (operand stop calls) fun between => expression stop (calls - between) 0
termination_by calls => calls
decreasing_by all_goals omega

/-- An expression, read with so many calls open at once, its own included. Its operators bind at
least as tightly as a level. -/
def expression (stop : Nat) : Nat → Nat → Parser Expr
  | 0 => fun _ _ => fail .tooDeep 0
  | calls + 1 => expressionWith stop calls (operand stop calls) (expression stop calls)
termination_by calls => calls
decreasing_by all_goals omega

end

theorem operand_zero (stop : Nat) (ts : List Token) : operand stop 0 ts = fail .tooDeep 0 := by
  rw [operand]

theorem expression_zero (stop level : Nat) (ts : List Token) :
    expression stop 0 level ts = fail .tooDeep 0 := by
  rw [expression]

/-- How many calls may be open at once if nobody says otherwise. Those around the parser count as
well, so that it is left with fewer. -/
def callLimit : Nat := 1000

/-- The expression that some tokens are, up to the last one. -/
def parseTokens (stop : Nat) (ts : List Token) (limit : Nat := callLimit) : Except Fault Expr :=
  if ts.isEmpty then fail .noExpression stop
  else do
    let e ← expression stop limit 0 ts
    match e.rest with
    | [] => return e.value
    | t :: _ => fail (.unexpected t) t.pos

/-- The expression that a text is. -/
def parse (text : String) (limit : Nat := callLimit) : Except Fault Expr :=
  match lexemes text with
  | .error e => fail (.lexical e.cause) e.pos
  | .ok ts => parseTokens text.length ts limit

end PanelExport.Query
