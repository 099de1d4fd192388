import PanelExport.Document.Basic
import PanelExport.Numeral
import PanelExport.Text.CharClass

/-!
# Values of settings

A setting has a kind. A value of another kind is taken if it stands for one of that kind: a text for
the number that it spells, a truth value for zero or one, a whole double for its number.
-/

namespace PanelExport.Setting

/-- White space that may stand around a number. The four separators of data are not among it. -/
def isMargin (c : Char) : Bool :=
  isBlank c && !('\x1c' ≤ c && c ≤ '\x1f')

/-- The text without white space at both ends. -/
def trimMargins (cs : List Char) : List Char :=
  ((cs.dropWhile isMargin).reverse.dropWhile isMargin).reverse

/-- The part in front of a point that only zeros follow, or everything if there is no point. -/
def withoutZeroFraction? (cs : List Char) : Option (List Char) :=
  match cs.span (· ≠ '.') with
  | (whole, '.' :: zeros) => if zeros.all (· == '0') then some whole else none
  | (whole, _) => some whole

/-- The whole number that a text spells with digits that single underscores may group. -/
def readWhole? (text : String) : Option Int := do
  let cs ← withoutZeroFraction? (trimMargins text.toList)
  if cs.all (·.toNat < 128) then readInt? cs else none

/-- The double that a word stands for. -/
def readWord? (cs : List Char) : Option Double :=
  let (negative, cs) := spanSign cs
  let word := (String.ofList cs).toLower
  if word = "inf" ∨ word = "infinity" then some (.infinite negative)
  else if word = "nan" then some .nan
  else none

/-- The text without underscores, if none of them stands at an end or beside another. -/
def withoutUnderscores? (cs : List Char) : Option (List Char) :=
  let misplaced := cs.head? == some '_' || cs.getLast? == some '_' ||
    (cs.zip cs.tail).contains ('_', '_')
  if misplaced then none else some (cs.filter (· ≠ '_'))

/-- The double that a text spells, as a decimal or as a word. -/
def readDouble? (text : String) : Option Double := do
  let cs ← withoutUnderscores? (trimMargins text.toList)
  if cs.all (·.toNat < 128) then (readDecimal? cs).or (readWord? cs) else none

/-- The text that a value is. -/
def text? : Document → Option String := Document.text?

/-- The whole number that a value stands for. -/
def int? : Document → Option Int
  | .int n => some n
  | .bool b => some (if b then 1 else 0)
  | .float x => x.toInt?
  | .text s => readWhole? s
  | _ => none

/-- The double that a value stands for. -/
def double? : Document → Option Double
  | .float x => some x
  | .int n => (doubleOfInt n).toOption
  | .bool b => some (Double.ofInt (if b then 1 else 0))
  | .text s => readDouble? s
  | _ => none

/-- The texts that a value lists. -/
def texts? : Document → Option (List String)
  | .list items => items.mapM Document.text?
  | _ => none

/-- What a value stands for, where it may be missing. -/
def optional {α : Type} (read : Document → Option α) : Document → Option (Option α)
  | .null => some none
  | d => (read d).map some

end PanelExport.Setting
