import PanelExport.Text.Wording

/-!
# Tokens

The words of the query language. A token keeps what it stands for and where it starts; the last
token of a text marks its end.

* `Token.isWord_iff`: a token is one of some words if its text, in lower case, is.
-/

namespace PanelExport.Query

/-- The kinds of tokens. -/
inductive Kind where
  | identifier
  | number
  | duration
  | text
  | leftParen
  | rightParen
  | leftBrace
  | rightBrace
  | leftBracket
  | rightBracket
  | comma
  | colon
  | atSign
  | operator
  | matcher
  | finish
  deriving DecidableEq

/-- What a message calls a kind of token. -/
def Kind.label : Kind → String
  | .identifier => "identifier"
  | .number => "number"
  | .duration => "duration"
  | .text => "string"
  | .leftParen => "("
  | .rightParen => ")"
  | .leftBrace => "\x7b"
  | .rightBrace => "\x7d"
  | .leftBracket => "["
  | .rightBracket => "]"
  | .comma => ","
  | .colon => ":"
  | .atSign => "@"
  | .operator => "operator"
  | .matcher => "matcher"
  | .finish => "end of input"

/-- A token: its kind, what it stands for, and the number of characters before it. -/
structure Token where
  kind : Kind
  value : String
  pos : Nat
  deriving DecidableEq

namespace Token

/-- What a message calls a token. -/
def describe (t : Token) : String :=
  match t.kind with
  | .finish => "end of input"
  | .identifier | .number | .duration | .text => t.kind.label ++ " \"" ++ t.value ++ "\""
  | _ => "\"" ++ t.value ++ "\""

/-- The mark at the end of a text. -/
def finish (pos : Nat) : Token := ⟨.finish, "", pos⟩

/-- One of some words, in upper or lower case. -/
def isWord (words : List String) (t : Token) : Bool :=
  t.kind == .identifier && words.contains t.value.toLower

theorem isWord_iff (words : List String) (t : Token) :
    t.isWord words ↔ t.kind = .identifier ∧ t.value.toLower ∈ words := by
  simp [isWord]

end Token

end PanelExport.Query
