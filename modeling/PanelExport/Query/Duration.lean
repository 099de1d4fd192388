import PanelExport.Numeral
import PanelExport.Text.Word

/-!
# Durations and numbers

A duration is a row of chunks, each a whole amount of one unit of time. Used as a number it counts
seconds: exactly, as long as no chunk is in milliseconds, and from the first such chunk on in
doubles, added from left to right.

* `Chunk.read?_length`: a chunk takes at least two characters.
* `spanChunks_nil`: without characters there are no chunks.
-/

namespace PanelExport.Query

/-- The units of time, from the millisecond to the year of 365 days. -/
inductive TimeUnit where
  | millisecond
  | second
  | minute
  | hour
  | day
  | week
  | year
  deriving DecidableEq

/-- A unit at the front of a text; the milliseconds go before the minutes. -/
def TimeUnit.read? : List Char → Option (TimeUnit × List Char)
  | 'm' :: 's' :: cs => some (.millisecond, cs)
  | 's' :: cs => some (.second, cs)
  | 'm' :: cs => some (.minute, cs)
  | 'h' :: cs => some (.hour, cs)
  | 'd' :: cs => some (.day, cs)
  | 'w' :: cs => some (.week, cs)
  | 'y' :: cs => some (.year, cs)
  | _ => none

/-- The seconds of a unit, where they are whole. -/
def TimeUnit.seconds? : TimeUnit → Option Nat
  | .millisecond => none
  | .second => some 1
  | .minute => some 60
  | .hour => some 3600
  | .day => some 86400
  | .week => some 604800
  | .year => some 31536000

/-- An amount of one unit. -/
structure Chunk where
  digits : List Nat
  unit : TimeUnit

/-- A chunk at the front of a text. -/
def Chunk.read? (cs : List Char) : Option (Chunk × List Char) :=
  match spanDigits cs with
  | ([], _) => none
  | (digits, rest) => (TimeUnit.read? rest).map fun (unit, rest) => (⟨digits, unit⟩, rest)

theorem TimeUnit.read?_length {cs rest : List Char} {u : TimeUnit}
    (h : TimeUnit.read? cs = some (u, rest)) : rest.length < cs.length := by
  unfold TimeUnit.read? at h
  split at h <;> cases h <;> simp only [List.length_cons] <;> omega

theorem Chunk.read?_length {cs rest : List Char} {k : Chunk}
    (h : Chunk.read? cs = some (k, rest)) : rest.length < cs.length := by
  unfold Chunk.read? at h
  split at h
  · cases h
  · next digits body _ hs =>
    obtain ⟨⟨u, r⟩, hu, he⟩ := Option.map_eq_some_iff.1 h
    cases he
    have hr := TimeUnit.read?_length hu
    have hb : body = cs.dropWhile isDecimalDigit := by
      simpa [spanDigits] using (congrArg Prod.snd hs).symm
    have := (List.dropWhile_sublist (l := cs) isDecimalDigit).length_le
    rw [← hb] at this
    omega

/-- The chunks that a text starts with, and what follows them. -/
def spanChunks (cs : List Char) : List Chunk × List Char :=
  match h : Chunk.read? cs with
  | none => ([], cs)
  | some (k, rest) =>
    have := Chunk.read?_length h
    let (ks, rest) := spanChunks rest
    (k :: ks, rest)
termination_by cs.length

theorem spanChunks_nil : spanChunks [] = ([], []) := by
  rw [spanChunks]
  rfl

/-- The length of a duration at the front of a text. Neither a word character nor a point may
follow it. -/
def durationSize? (cs : List Char) : Option Nat :=
  match spanChunks cs with
  | ([], _) => none
  | (_, []) => some cs.length
  | (_, c :: rest) =>
    if isWord c || c == '.' then none else some (cs.length - (rest.length + 1))

/-! ## Values -/

/-- A number of the query language: exact while it is whole, or a double. -/
inductive Number where
  | whole (n : Int)
  | double (x : Double)
  deriving DecidableEq

namespace Number

/-- The double that a number is or becomes. -/
def toDouble : Number → Except NumberFault Double
  | .whole n => doubleOfInt n
  | .double x => .ok x

/-- The sum, exact for two whole numbers. -/
def add : Number → Number → Except NumberFault Number
  | .whole a, .whole b => .ok (.whole (a + b))
  | a, b => do return .double ((← a.toDouble).add (← b.toDouble))

/-- The number under a sign, which is a double. -/
def signed (negative : Bool) (n : Number) : Except NumberFault Number := do
  let sign := Double.ofInt (if negative then -1 else 1)
  return .double (sign.mul (← n.toDouble))

end Number

/-- The double nearest to a thousandth. -/
def thousandth : Double := Double.ofDecimal false 1 (-3)

/-- The seconds of a chunk. -/
def Chunk.value (k : Chunk) : Except NumberFault Number := do
  let amount ← wholeNumber k.digits
  match k.unit.seconds? with
  | some seconds => return .whole (amount * seconds)
  | none => return .double ((← doubleOfInt amount).mul thousandth)

/-- The seconds of a row of chunks, added to a number. -/
def sumChunks (total : Number) : List Chunk → Except NumberFault Number
  | [] => .ok total
  | k :: ks => do sumChunks (← total.add (← k.value)) ks

/-- The digits of a hexadecimal number. -/
def hexDigits? : List Char → Option (List Nat)
  | '0' :: 'x' :: cs => cs.mapM hexValue?
  | '0' :: 'X' :: cs => cs.mapM hexValue?
  | _ => none

/-- The value of a number as it is written: hexadecimal, decimal or a duration. -/
def numberValue (cs : List Char) : Except NumberFault Number :=
  match hexDigits? cs, readDecimal? cs with
  | some digits, _ => (doubleOfInt (ofDigits 16 digits)).map .double
  | none, some x => .ok (.double x)
  | none, none => sumChunks (.whole 0) (spanChunks cs).1

end PanelExport.Query
