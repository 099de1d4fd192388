import PanelExport.Document.Basic
import PanelExport.Numeral
import PanelExport.Text.Utf8
import PanelExport.Text.Wording

/-!
# Reading documents

A reader of a part of a document takes that part off the front of a text and returns what is left,
with the fact that less is left than before. A fault is placed by how much of the text was left
when it showed. Besides the numbers of the standard format, the words `NaN`, `Infinity` and
`-Infinity` are read as doubles.

* `Document.skipBlanks_length_le`: skipping blanks never lengthens the text.
-/

namespace PanelExport

/-- What the reader misses, or does not accept. -/
inductive ReadCause where
  | value
  | name
  | colon
  | comma
  | openText
  | control
  | escape
  | unicodeEscape
  | extra
  | byteOrderMark
  deriving DecidableEq

/-- The wording of a cause. -/
def ReadCause.message : ReadCause → String
  | .value => "Expecting value"
  | .name => "Expecting property name enclosed in double quotes"
  | .colon => "Expecting ':' delimiter"
  | .comma => "Expecting ',' delimiter"
  | .openText => "Unterminated string starting at"
  | .control => "Invalid control character at"
  | .escape => "Invalid \\escape"
  | .unicodeEscape => "Invalid \\uXXXX escape"
  | .extra => "Extra data"
  | .byteOrderMark => "Unexpected UTF-8 BOM (decode using utf-8-sig)"

/-- Why a text is no document. -/
inductive ReadFault where
  /-- The text is malformed where `left` characters are left. -/
  | malformed (cause : ReadCause) (left : Nat)
  | number (fault : NumberFault)
  | tooDeep
  deriving DecidableEq

/-- The wording of a fault in a text. -/
def ReadFault.message (text : List Char) : ReadFault → String
  | .malformed cause left =>
    let pos := text.length - left
    let place := lineColumn text pos
    cause.message ++ ": line " ++ toString place.line ++ " column " ++ toString place.column ++
      " (char " ++ toString pos ++ ")"
  | .number fault => fault.message
  | .tooDeep => "maximum recursion depth exceeded while decoding a JSON document"

/-- A value taken off the front of `cs`, and what is left. -/
structure Reading (α : Type) (cs : List Char) where
  value : α
  rest : List Char
  shorter : rest.length < cs.length

/-- A reader of values at the front of a text. -/
abbrev Reader (α : Type) := (cs : List Char) → Except ReadFault (Reading α cs)

namespace Document

/-! ## Blanks and numbers -/

/-- The four blank characters that may stand between the parts of a document. -/
def isBlankBetween (c : Char) : Bool :=
  c == ' ' || c == '\t' || c == '\n' || c == '\r'

/-- The text without the blanks at its start. -/
def skipBlanks (cs : List Char) : List Char :=
  cs.dropWhile isBlankBetween

theorem skipBlanks_length_le (cs : List Char) : (skipBlanks cs).length ≤ cs.length :=
  (List.dropWhile_sublist _).length_le

/-- The length of a fraction at the start of a text. -/
def fractionSize : List Char → Nat
  | '.' :: cs => if runLength Char.isDigit cs = 0 then 0 else runLength Char.isDigit cs + 1
  | _ => 0

/-- The length of the whole part of a number; only zero itself starts with a zero. -/
def wholeSize : List Char → Nat
  | '0' :: _ => 1
  | cs => runLength Char.isDigit cs

/-- The number with this sign and these characters; it is whole unless it has more than a whole
part. -/
def numberOf (limit : Nat) (negative : Bool) (whole more : List Char) : Except ReadFault Document :=
  if more.isEmpty then
    match wholeNumberWithin limit (whole.filterMap digitValue?) with
    | .ok n => .ok (.int (if negative then -n else n))
    | .error fault => .error (.number fault)
  else
    match readDecimal? (whole ++ more) with
    | some x => .ok (.float (if negative then x.neg else x))
    | none => .error (.malformed .value 0)

/-- A number at the front of a text; a whole one has at most `limit` digits. -/
def readNumber (limit : Nat) : Reader Document := fun cs => do
  let sign := if cs.head? = some '-' then 1 else 0
  let body := cs.drop sign
  let whole := wholeSize body
  let fraction := fractionSize (body.drop whole)
  let size := whole + fraction + powerSize Char.isDigit (body.drop (whole + fraction))
  let rest := body.drop size
  if h : whole ≠ 0 ∧ rest.length < cs.length then
    let d ← numberOf limit (sign = 1) (body.take whole) ((body.take size).drop whole)
    return ⟨d, rest, h.2⟩
  else
    throw (.malformed .value cs.length)

/-! ## Texts -/

/-- The value of four hexadecimal digits, if a text starts with them. -/
def hexQuad? : List Char → Option (Nat × List Char)
  | a :: b :: c :: d :: rest =>
    match hexValue? a, hexValue? b, hexValue? c, hexValue? d with
    | some a, some b, some c, some d => some (ofDigits 16 [a, b, c, d], rest)
    | _, _, _, _ => none
  | _ => none

theorem hexQuad?_length {cs rest : List Char} {n : Nat} (h : hexQuad? cs = some (n, rest)) :
    rest.length < cs.length := by
  unfold hexQuad? at h
  split at h
  · split at h
    · cases h
      simp
      omega
    · cases h
  · cases h

/-- The character that a letter after a backslash stands for. -/
def escapeChar? : Char → Option Char
  | '"' => some '"'
  | '\\' => some '\\'
  | '/' => some '/'
  | 'b' => some '\x08'
  | 'f' => some '\x0c'
  | 'n' => some '\n'
  | 'r' => some '\r'
  | 't' => some '\t'
  | _ => none

/-- The escaped second half that a text starts with, if something follows it. -/
def lowUnit? : List Char → Option (Nat × List Char)
  | '\\' :: 'u' :: cs => (hexQuad? cs).filter fun (low, rest) => isLowHalf low && !rest.isEmpty
  | _ => none

theorem lowUnit?_length {cs rest : List Char} {low : Nat} (h : lowUnit? cs = some (low, rest)) :
    rest.length < cs.length := by
  unfold lowUnit? at h
  split at h
  · have := hexQuad?_length (Option.filter_eq_some_iff.1 h).1
    simp only [List.length_cons]
    omega
  · cases h

/-- A numbered escape, past its `u`. At least one character has to follow it. -/
def readUnit : Reader Char := fun cs =>
  let fault := ReadFault.malformed .unicodeEscape (cs.length + 1)
  match h : hexQuad? cs with
  | none => .error fault
  | some (n, rest) =>
    if rest.isEmpty then .error fault
    else
      match hl : if isHighHalf n then lowUnit? rest else none with
      | none => .ok ⟨unitChar n, rest, hexQuad?_length h⟩
      | some (low, after) => .ok ⟨joinHalves n low, after, by
          have hlow := (Option.ite_none_right_eq_some.1 hl).2
          exact Nat.lt_trans (lowUnit?_length hlow) (hexQuad?_length h)⟩

/-- One character of a text, or nothing at its closing quote. The text was opened where `start`
characters were left. -/
def readTextUnit (start : Nat) : Reader (Option Char)
  | [] => .error (.malformed .openText start)
  | '"' :: rest => .ok ⟨none, rest, by simp⟩
  | '\\' :: rest =>
    match rest with
    | [] => .error (.malformed .openText start)
    | 'u' :: rest => do
      let unit ← readUnit rest
      return ⟨some unit.value, unit.rest, by have := unit.shorter; simp; omega⟩
    | e :: rest =>
      match escapeChar? e with
      | some c => .ok ⟨some c, rest, by simp only [List.length_cons]; omega⟩
      | none => .error (.malformed .escape (rest.length + 2))
  | c :: rest =>
    if c.toNat < 0x20 then .error (.malformed .control (rest.length + 1))
    else .ok ⟨some c, rest, by simp⟩

/-- The characters of a text, past its opening quote. -/
def readTextChars (start : Nat) (cs : List Char) : Except ReadFault (Reading (List Char) cs) := do
  let unit ← readTextUnit start cs
  match unit.value with
  | none => return ⟨[], unit.rest, unit.shorter⟩
  | some c =>
    let more ← readTextChars start unit.rest
    return ⟨c :: more.value, more.rest, Nat.lt_trans more.shorter unit.shorter⟩
termination_by cs.length
decreasing_by exact unit.shorter

/-! ## Lists and objects -/

/-- The items of a row, up to and with its closing character, at its first item. -/
def readRow {α : Type} (close : Char) (item : Reader α) (cs : List Char) :
    Except ReadFault (Reading (List α) cs) := do
  let first ← item cs
  have hs := first.shorter
  have hb := skipBlanks_length_le first.rest
  match h : skipBlanks first.rest with
  | c :: rest =>
    if c = close then return ⟨[first.value], rest, by simp [h] at hb; omega⟩
    else if c = ',' then
      have ht := skipBlanks_length_le rest
      let more ← readRow close item (skipBlanks rest)
      return ⟨first.value :: more.value, more.rest, by
        have := more.shorter
        simp [h] at hb
        omega⟩
    else throw (.malformed .comma (rest.length + 1))
  | [] => throw (.malformed .comma 0)
termination_by cs.length
decreasing_by simp [h] at hb; omega

/-- The items between two brackets, past the opening one. -/
def readBracketed {α : Type} (close : Char) (item : Reader α) : Reader (List α) := fun cs =>
  have hb := skipBlanks_length_le cs
  match h : skipBlanks cs with
  | c :: rest =>
    if c = close then .ok ⟨[], rest, by simp only [h, List.length_cons] at hb; omega⟩
    else do
      let items ← readRow close item (c :: rest)
      return ⟨items.value, items.rest, by
        have := items.shorter
        simp only [h, List.length_cons] at hb this
        omega⟩
  | [] => do
    let items ← readRow close item []
    return ⟨items.value, items.rest, by have := items.shorter; simp at this⟩

/-- A name with its value. -/
def readMember (item : Reader Document) : Reader (String × Document) := fun cs => do
  match hc : cs with
  | '"' :: body =>
    let name ← readTextChars cs.length body
    have hn := name.shorter
    have hb := skipBlanks_length_le name.rest
    match h : skipBlanks name.rest with
    | ':' :: body =>
      have ht := skipBlanks_length_le body
      let value ← item (skipBlanks body)
      have hv := value.shorter
      return ⟨(String.ofList name.value, value.value), value.rest, by
        simp [h] at hb
        simp [hc]
        omega⟩
    | other => throw (.malformed .colon other.length)
  | _ => throw (.malformed .name cs.length)

/-! ## Documents -/

/-- A document whose items are read by `item`, if lists and objects may still be opened. -/
def readWith (limit : Nat) (item : Except ReadFault (Reader Document)) : Reader Document
  | '"' :: cs => do
    let text ← readTextChars (cs.length + 1) cs
    return ⟨.text (String.ofList text.value), text.rest, by have := text.shorter; simp; omega⟩
  | '[' :: cs => do
    let items ← readBracketed ']' (← item) cs
    return ⟨.list items.value, items.rest, by have := items.shorter; simp; omega⟩
  | '\x7b' :: cs => do
    let members ← readBracketed '\x7d' (readMember (← item)) cs
    return ⟨.object (ofEntries members.value), members.rest, by
      have := members.shorter
      simp
      omega⟩
  | 'n' :: 'u' :: 'l' :: 'l' :: rest => .ok ⟨.null, rest, by simp; omega⟩
  | 't' :: 'r' :: 'u' :: 'e' :: rest => .ok ⟨.bool true, rest, by simp; omega⟩
  | 'f' :: 'a' :: 'l' :: 's' :: 'e' :: rest => .ok ⟨.bool false, rest, by simp; omega⟩
  | 'N' :: 'a' :: 'N' :: rest => .ok ⟨.float .nan, rest, by simp; omega⟩
  | 'I' :: 'n' :: 'f' :: 'i' :: 'n' :: 'i' :: 't' :: 'y' :: rest =>
    .ok ⟨.float (.infinite false), rest, by simp; omega⟩
  | '-' :: 'I' :: 'n' :: 'f' :: 'i' :: 'n' :: 'i' :: 't' :: 'y' :: rest =>
    .ok ⟨.float (.infinite true), rest, by simp; omega⟩
  | cs => readNumber limit cs

/-- A document that nests lists and objects at most `depth` deep, with whole numbers of at most
`limit` digits. -/
def readNested (limit : Nat) : Nat → Reader Document
  | 0 => readWith limit (.error .tooDeep)
  | depth + 1 => readWith limit (.ok (readNested limit depth))

/-- How deep lists and objects may nest. -/
def depthLimit : Nat := 990

/-- The document at the front of a text, whatever follows it. -/
def readFirst (cs : List Char) : Except ReadFault Document :=
  (readNested digitLimit depthLimit cs).map (·.value)

/-- The document that a whole text is, but for blanks around it. -/
def readWhole (cs : List Char) : Except ReadFault Document := do
  let document ← readNested digitLimit depthLimit (skipBlanks cs)
  match skipBlanks document.rest with
  | [] => return document.value
  | rest => throw (.malformed .extra rest.length)

/-- The document that a whole text is, which must not start with a byte order mark. -/
def read (cs : List Char) : Except ReadFault Document :=
  if cs.head? = some '\uFEFF' then .error (.malformed .byteOrderMark cs.length)
  else readWhole cs

end Document

end PanelExport
