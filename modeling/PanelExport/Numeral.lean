import PanelExport.Double.Basic
import PanelExport.Text.CharClass

/-!
# Reading numbers

Whole numbers and decimals written in the digits of any script, and what can go wrong when a number
changes its form.

* `NumberFault.message`: the wording of the faults.
* `wholeNumber_of_le`: up to `digitLimit` digits every run of digits is a whole number.
* `ofDigits_append`: a run of digits followed by another one.
-/

namespace PanelExport

/-- The most decimal digits that a whole number is read from or written with. -/
def digitLimit : Nat := 4300

/-- Why a number cannot take the form asked for. -/
inductive NumberFault where
  /-- A whole number is to be read from more digits than the limit. -/
  | tooLong (digits : Nat)
  /-- A whole number is to be written with more digits than the limit. -/
  | tooLongToWrite
  /-- A whole number lies past the greatest double. -/
  | tooLarge
  /-- Not-a-number has no whole part. -/
  | notANumber
  /-- An infinity has no whole part. -/
  | infinite
  deriving DecidableEq

/-- The wording of a fault. -/
def NumberFault.message : NumberFault → String
  | .tooLong digits =>
    "Exceeds the limit (" ++ toString digitLimit ++ " digits) for integer string conversion: " ++
      "value has " ++ toString digits ++ " digits; use sys.set_int_max_str_digits() to increase " ++
      "the limit"
  | .tooLongToWrite =>
    "Exceeds the limit (" ++ toString digitLimit ++ " digits) for integer string conversion; " ++
      "use sys.set_int_max_str_digits() to increase the limit"
  | .tooLarge => "int too large to convert to float"
  | .notANumber => "cannot convert float NaN to integer"
  | .infinite => "cannot convert float infinity to integer"

/-- The number with these digits, the most significant first. -/
def ofDigits (base : Nat) (digits : List Nat) : Nat :=
  digits.foldl (fun n d => base * n + d) 0

theorem ofDigits_append (base : Nat) (ds es : List Nat) :
    ofDigits base (ds ++ es) = es.foldl (fun n d => base * n + d) (ofDigits base ds) := by
  simp [ofDigits]

/-- The whole number with these decimal digits, up to a limit. -/
def wholeNumberWithin (limit : Nat) (digits : List Nat) : Except NumberFault Nat :=
  if digits.length ≤ limit then .ok (ofDigits 10 digits) else .error (.tooLong digits.length)

/-- The whole number with these decimal digits, up to `digitLimit` of them. -/
def wholeNumber (digits : List Nat) : Except NumberFault Nat :=
  wholeNumberWithin digitLimit digits

theorem wholeNumber_of_le {digits : List Nat} (h : digits.length ≤ digitLimit) :
    wholeNumber digits = .ok (ofDigits 10 digits) := by
  simp [wholeNumber, wholeNumberWithin, h]

/-- The decimal text of a whole number, up to the limit. -/
def intText (n : Int) : Except NumberFault String :=
  let text := toString n.natAbs
  if text.length ≤ digitLimit then .ok ((if n < 0 then "-" else "") ++ text)
  else .error .tooLongToWrite

/-- The value of a hexadecimal digit. -/
def hexValue? (c : Char) : Option Nat :=
  if '0' ≤ c ∧ c ≤ '9' then some (c.toNat - '0'.toNat)
  else if 'a' ≤ c ∧ c ≤ 'f' then some (c.toNat - 'a'.toNat + 10)
  else if 'A' ≤ c ∧ c ≤ 'F' then some (c.toNat - 'A'.toNat + 10)
  else none

/-- The number of characters of a class that a text starts with. -/
def runLength (inside : Char → Bool) (cs : List Char) : Nat :=
  (cs.takeWhile inside).length

/-- The length of a power of ten at the start of a text, in digits of the given kind. -/
def powerSize (digit : Char → Bool) : List Char → Nat
  | c :: cs =>
    if c = 'e' ∨ c = 'E' then
      let sign := match cs with
        | '+' :: _ => 1
        | '-' :: _ => 1
        | _ => 0
      let digits := runLength digit (cs.drop sign)
      if digits = 0 then 0 else 1 + sign + digits
    else 0
  | [] => 0

/-- The values of the decimal digits that a text starts with, and what follows them. -/
def spanDigits (cs : List Char) : List Nat × List Char :=
  ((cs.takeWhile isDecimalDigit).filterMap digitValue?, cs.dropWhile isDecimalDigit)

/-- A sign at the start, true for a minus, and what follows it. -/
def spanSign : List Char → Bool × List Char
  | '-' :: cs => (true, cs)
  | '+' :: cs => (false, cs)
  | cs => (false, cs)

/-- A power of ten as it stands behind a decimal, if anything stands there. -/
def readPower? : List Char → Option Int
  | [] => some 0
  | c :: cs =>
    if c = 'e' ∨ c = 'E' then
      let (negative, cs) := spanSign cs
      match spanDigits cs with
      | (d :: ds, []) =>
        let n : Int := ofDigits 10 (d :: ds)
        some (if negative then -n else n)
      | _ => none
    else none

/-- The double nearest to a decimal: digits with at most one point among them and at least one
digit, then perhaps a power of ten. -/
def readDecimal? (text : List Char) : Option Double :=
  let (negative, cs) := spanSign text
  let (whole, cs) := spanDigits cs
  let (fraction, cs) := match cs with
    | '.' :: cs => spanDigits cs
    | cs => ([], cs)
  if whole.isEmpty && fraction.isEmpty then none
  else (readPower? cs).map fun power =>
    Double.ofDecimal negative (ofDigits 10 (whole ++ fraction)) (power - fraction.length)

/-- Digits in which single underscores may stand between two digits. -/
def readGroupedDigits? : List Char → Option (List Nat)
  | [] => none
  | [c] => (digitValue? c).map ([·])
  | c :: '_' :: cs => do return (← digitValue? c) :: (← readGroupedDigits? cs)
  | c :: cs => do return (← digitValue? c) :: (← readGroupedDigits? cs)

/-- A whole number: a sign, then decimal digits of any script that single underscores may group. -/
def readInt? (text : List Char) : Option Int := do
  let (negative, cs) := spanSign text
  let n ← (wholeNumber (← readGroupedDigits? cs)).toOption
  return if negative then -n else n

/-- The double nearest to a whole number, unless the number is past the greatest one. -/
def doubleOfInt (n : Int) : Except NumberFault Double :=
  match Double.ofInt n with
  | .infinite _ => .error .tooLarge
  | x => .ok x

/-- The whole part of a double. -/
def wholePart (x : Double) : Except NumberFault Int :=
  match x.trunc? with
  | some n => .ok n
  | none => .error (if x = .nan then .notANumber else .infinite)

end PanelExport
