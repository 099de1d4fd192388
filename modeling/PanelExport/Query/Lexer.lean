import PanelExport.Query.Duration
import PanelExport.Query.Token
import PanelExport.Text.CharClass

/-!
# From text to tokens

The lexer cuts a text into pieces, from left to right: layout, which means nothing, and lexemes,
each of which is one token. What a character may start depends on the brackets around it: inside
braces names have no colons and the matching operators are matchers; inside brackets a colon stands
for itself.
-/

namespace PanelExport.Query

/-- Why a text has no tokens. -/
inductive LexCause where
  | unexpected (c : Char)
  | rightBrace
  | rightBracket
  | openBrace
  | openBracket
  | openText
  deriving DecidableEq

/-- The wording of a cause. -/
def LexCause.message : LexCause → String
  | .unexpected c => "unexpected character: " ++ quoted (String.singleton c)
  | .rightBrace => "unexpected right brace '\x7d'"
  | .rightBracket => "unexpected right bracket ']'"
  | .openBrace => "unclosed left brace"
  | .openBracket => "unclosed left bracket"
  | .openText => "unterminated quoted string"

/-- A cause and the number of characters before it. -/
structure LexError where
  cause : LexCause
  pos : Nat
  deriving DecidableEq

/-- The open braces and brackets around a place. -/
structure Context where
  braces : Nat
  brackets : Nat
  deriving DecidableEq

/-- No braces and no brackets. -/
def Context.outside : Context := ⟨0, 0⟩

/-- A stretch of a text. -/
inductive Piece where
  | layout (source : List Char)
  | lexeme (kind : Kind) (value : String) (source : List Char)
  deriving DecidableEq

/-- The characters of a piece. -/
def Piece.source : Piece → List Char
  | .layout source => source
  | .lexeme _ _ source => source

/-! ## Texts in quotes -/

/-- The number of characters up to and with the closing quote. A backslash keeps the next character
from closing the text, and a newline that is not kept so ends the search. -/
def closingQuote? (quote : Char) : List Char → Option Nat
  | [] => none
  | '\\' :: _ :: cs => (closingQuote? quote cs).map (· + 2)
  | c :: cs =>
    if c = quote then some 1
    else if c = '\n' then none
    else (closingQuote? quote cs).map (· + 1)

/-- The number of characters up to and with a closing back quote; nothing keeps it from closing. -/
def closingBackquote? : List Char → Option Nat
  | [] => none
  | c :: cs => if c = '\x60' then some 1 else (closingBackquote? cs).map (· + 1)

/-- The characters that a body between quotes stands for. An escaped newline stays as it is. -/
def unescape : List Char → List Char
  | '\\' :: c :: cs =>
    if c = '\n' then '\\' :: '\n' :: unescape cs
    else (if c = 'n' then '\n' else if c = 't' then '\t' else c) :: unescape cs
  | c :: cs => c :: unescape cs
  | [] => []

/-! ## Numbers and names -/

/-- The length of a number at the front of a text: hexadecimal, or decimal with at most one point
and perhaps a power of ten. -/
def numberSize? (cs : List Char) : Option Nat :=
  match cs with
  | '0' :: 'x' :: rest => some (hexSize rest)
  | '0' :: 'X' :: rest => some (hexSize rest)
  | _ => decimalSize?
where
  /-- Without a hexadecimal digit the zero before the letter is a number of its own. -/
  hexSize (rest : List Char) : Nat :=
    let digits := runLength (fun c => (hexValue? c).isSome) rest
    if digits = 0 then 1 else digits + 2
  decimalSize? : Option Nat :=
    let whole := runLength isDecimalDigit cs
    let fraction := match cs.drop whole with
      | '.' :: rest =>
        let digits := runLength isDecimalDigit rest
        if whole = 0 ∧ digits = 0 then 0 else digits + 1
      | _ => 0
    let size := whole + fraction
    if size = 0 then none else some (size + powerSize isDecimalDigit (cs.drop size))

/-- A character that a name may start with. -/
def startsName (c : Char) : Bool :=
  c.isAlpha || c == '_'

/-- A character inside a name. -/
def continuesName (c : Char) : Bool :=
  c.isAlphanum || c == '_'

/-! ## One piece -/

/-- What the lexer takes at a place: a token or layout, how many characters after the first it
covers, and the context behind it. -/
structure Step where
  token? : Option (Kind × String)
  extra : Nat
  context : Context

/-- A choice that does not apply, one that does, or a fault. -/
abbrev Choice := Option (Except LexCause Step)

/-- Blanks one by one, and a comment with the newline that ends it. -/
def layoutChoice (k : Context) (c : Char) (cs : List Char) : Choice :=
  if isBlank c then some (.ok ⟨none, 0, k⟩)
  else if c = '#' then some (.ok ⟨none, runLength (· ≠ '\n') cs + 1, k⟩)
  else none

/-- A text in one of the three quotes. -/
def textChoice (k : Context) (c : Char) (cs : List Char) : Choice :=
  if c = '\x60' then
    some (match closingBackquote? cs with
      | some size => .ok ⟨some (.text, String.ofList (cs.take (size - 1))), size, k⟩
      | none => .error .openText)
  else if c = '"' ∨ c = '\'' then
    some (match closingQuote? c cs with
      | some size => .ok ⟨some (.text, String.ofList (unescape (cs.take (size - 1)))), size, k⟩
      | none => .error .openText)
  else none

/-- Brackets of all kinds, commas, at signs, and colons inside brackets. -/
def markChoice (k : Context) (c : Char) : Choice :=
  let one (kind : Kind) (k : Context) : Choice := some (.ok ⟨some (kind, String.singleton c), 0, k⟩)
  if c = ':' then if 0 < k.brackets then one .colon k else none
  else if c = '(' then one .leftParen k
  else if c = ')' then one .rightParen k
  else if c = '\x7b' then one .leftBrace { k with braces := k.braces + 1 }
  else if c = '\x7d' then
    if k.braces = 0 then some (.error .rightBrace)
    else one .rightBrace { k with braces := k.braces - 1 }
  else if c = '[' then one .leftBracket { k with brackets := k.brackets + 1 }
  else if c = ']' then
    if k.brackets = 0 then some (.error .rightBracket)
    else one .rightBracket { k with brackets := k.brackets - 1 }
  else if c = ',' then one .comma k
  else if c = '@' then one .atSign k
  else none

/-- A duration or else a number. A digit starts one, and a point before a digit. -/
def numberChoice (k : Context) (c : Char) (cs : List Char) : Choice :=
  let starts := isDigit c || (c == '.' && (cs.head?.any isDigit))
  let token (kind : Kind) (size : Nat) : Except LexCause Step :=
    .ok ⟨some (kind, String.ofList ((c :: cs).take size)), size - 1, k⟩
  if starts then
    match durationSize? (c :: cs), numberSize? (c :: cs) with
    | some size, _ => some (token .duration size)
    | none, some size => some (token .number size)
    | none, none => none
  else none

/-- A name; outside braces colons belong to it. -/
def nameChoice (k : Context) (c : Char) (cs : List Char) : Choice :=
  let colon (c : Char) : Bool := k.braces == 0 && c == ':'
  if startsName c || colon c then
    let extra := runLength (fun c => continuesName c || colon c) cs
    some (.ok ⟨some (.identifier, String.ofList (c :: cs.take extra)), extra, k⟩)
  else none

/-- The operators, the longer ones first. -/
def operators : List String :=
  ["==", "!=", "<=", ">=", "=~", "!~", "+", "-", "*", "/", "%", "^", "<", ">", "="]

/-- The operators that inside braces are matchers. -/
def matcherTexts : List String := ["=", "!=", "=~", "!~"]

/-- An operator, or inside braces a matcher. -/
def operatorChoice (k : Context) (c : Char) (cs : List Char) : Choice :=
  (operators.find? fun op => op.toList.isPrefixOf (c :: cs)).map fun op =>
    let kind := if 0 < k.braces ∧ op ∈ matcherTexts then Kind.matcher else .operator
    .ok ⟨some (kind, op), op.length - 1, k⟩

/-- What the lexer takes at the front of a text: the first choice that applies. -/
def takeStep (k : Context) (c : Char) (cs : List Char) : Except LexCause Step :=
  ((layoutChoice k c cs).or <| (textChoice k c cs).or <| (markChoice k c).or <|
    (numberChoice k c cs).or <| (nameChoice k c cs).or <| operatorChoice k c cs).getD
    (.error (.unexpected c))

/-! ## A whole text -/

/-- What is wrong with a text that ends in a context, if anything. -/
def Context.unclosed? (k : Context) : Option LexCause :=
  if 0 < k.braces then some .openBrace
  else if 0 < k.brackets then some .openBracket
  else none

/-- The pieces of a text that starts in a context, behind `pos` characters. -/
def piecesFrom (k : Context) (pos : Nat) : List Char → Except LexError (List Piece)
  | [] =>
    match k.unclosed? with
    | some cause => .error ⟨cause, pos⟩
    | none => .ok []
  | c :: cs =>
    match takeStep k c cs with
    | .error cause => .error ⟨cause, pos⟩
    | .ok step => do
      let source := c :: cs.take step.extra
      let piece := match step.token? with
        | none => Piece.layout source
        | some (kind, value) => .lexeme kind value source
      return piece :: (← piecesFrom step.context (pos + source.length) (cs.drop step.extra))
termination_by cs => cs.length
decreasing_by simp only [List.length_drop, List.length_cons]; omega

/-- The pieces of a text. -/
def pieces (cs : List Char) : Except LexError (List Piece) :=
  piecesFrom .outside 0 cs

/-- The tokens of some pieces that stand behind `pos` characters. -/
def tokensOf (pos : Nat) : List Piece → List Token
  | [] => []
  | .layout source :: rest => tokensOf (pos + source.length) rest
  | .lexeme kind value source :: rest => ⟨kind, value, pos⟩ :: tokensOf (pos + source.length) rest

/-- The tokens of a text without the end mark. -/
def lexemes (text : String) : Except LexError (List Token) :=
  (pieces text.toList).map (tokensOf 0)

/-- The tokens of a text, and the mark at its end. -/
def tokenize (text : String) : Except LexError (List Token) :=
  (lexemes text).map (· ++ [.finish text.length])

end PanelExport.Query
