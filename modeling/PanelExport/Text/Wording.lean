import PanelExport.Text.Printable

/-!
# Texts in messages

What a message shows of a text. A text in quotes stands in single quotes, or in double ones if it
has a single quote and no double one; the backslash, the quote and what is not printable are written
as escapes. A place in a text is a count of the characters before it; readers of a message see a
line and a column, both counted from one.

* `lineColumn_zero`: the start of a text is line one, column one.
* `lineColumn_step`: a newline starts the next line, any other character the next column.
-/

namespace PanelExport

/-! ## Quoted texts -/

/-- The hexadecimal digits of a number, padded with zeros to a width. -/
def hexPadded (width n : Nat) : List Char :=
  let digits := Nat.toDigits 16 n
  List.replicate (width - digits.length) '0' ++ digits

/-- The quote that needs no escape, if there is one. -/
def quoteFor (cs : List Char) : Char :=
  if cs.contains '\'' && !cs.contains '"' then '"' else '\''

/-- A character by its number; escapes grow with it. -/
def escapedChar (c : Char) : List Char :=
  if c.toNat < 0x100 then '\\' :: 'x' :: hexPadded 2 c.toNat
  else if c.toNat < 0x10000 then '\\' :: 'u' :: hexPadded 4 c.toNat
  else '\\' :: 'U' :: hexPadded 8 c.toNat

/-- A character inside quotes. -/
def quotedChar (quote c : Char) : List Char :=
  if c == quote || c == '\\' then ['\\', c]
  else if c == '\n' then ['\\', 'n']
  else if c == '\r' then ['\\', 'r']
  else if c == '\t' then ['\\', 't']
  else if isPrintable c then [c]
  else escapedChar c

/-- The text in quotes. -/
def quoted (s : String) : String :=
  let quote := quoteFor s.toList
  String.ofList (quote :: s.toList.flatMap (quotedChar quote) ++ [quote])

/-! ## Lines and columns -/

/-- A place in a text as a reader counts it. -/
structure LineColumn where
  line : Nat
  column : Nat
  deriving DecidableEq

/-- The place just past a character. -/
def LineColumn.step (p : LineColumn) (c : Char) : LineColumn :=
  if c = '\n' then ⟨p.line + 1, 1⟩ else ⟨p.line, p.column + 1⟩

/-- The line and column of the place with `pos` characters before it. -/
def lineColumn (cs : List Char) (pos : Nat) : LineColumn :=
  (cs.take pos).foldl LineColumn.step ⟨1, 1⟩

theorem lineColumn_zero (cs : List Char) : lineColumn cs 0 = ⟨1, 1⟩ := rfl

theorem lineColumn_step {cs : List Char} {pos : Nat} (h : pos < cs.length) :
    lineColumn cs (pos + 1) = (lineColumn cs pos).step cs[pos] := by
  rw [lineColumn, List.take_succ_eq_append_getElem h, List.foldl_append]
  rfl

end PanelExport
