/-!
# Names in basic characters

A name in any script is spelled with basic letters, digits and hyphens: first its basic characters,
then, behind a hyphen, where the others belong. These are taken in the order of their code points,
and for each the number of places and code points passed over since the one before is written. A
number is written with its least digit first, in digits that depend on the numbers before it.

* `threshold_pos`, `threshold_le`: where the last digit of a number ends.
* `encode_of_basic`: a name of basic characters is followed by a hyphen alone.
-/

namespace PanelExport.Punycode

/-! ## Numbers -/

/-- The digit of a value below 36: a letter, or else a decimal digit. -/
def digit (value : Nat) : Char :=
  Char.ofNat (if value < 26 then 0x61 + value else 0x30 + (value - 26))

/-- A digit below this is the last one of a number, at a place and under a bias. -/
def threshold (bias place : Nat) : Nat := min 26 (max 1 (place - bias))

theorem threshold_pos (bias place : Nat) : 1 ≤ threshold bias place := by
  unfold threshold
  omega

theorem threshold_le (bias place : Nat) : threshold bias place ≤ 26 := by
  unfold threshold
  omega

/-- The digits of a number from a place on. -/
def digits (bias place n : Nat) : List Char :=
  let t := threshold bias place
  if n < t then [digit n]
  else digit (t + (n - t) % (36 - t)) :: digits bias (place + 36) ((n - t) / (36 - t))
termination_by n
decreasing_by
  have h := threshold_pos bias place
  have : (n - threshold bias place) / (36 - threshold bias place) ≤ n - threshold bias place :=
    Nat.div_le_self _ _
  omega

/-- The bias that a number of this size asks for. -/
def biasOf (place n : Nat) : Nat :=
  if 455 < n then biasOf (place + 36) (n / 35) else place + 36 * n / (n + 38)
termination_by n
decreasing_by exact Nat.div_lt_self (by omega) (by omega)

/-- The bias after a number, with this many characters placed. The first number counts for less. -/
def nextBias (n placed : Nat) (isFirst : Bool) : Nat :=
  let scaled := if isFirst then n / 700 else n / 2
  biasOf 0 (scaled + scaled / placed)

/-! ## Names -/

/-- A character of the basic ones. -/
def isBasic (c : Char) : Bool := c.toNat < 128

/-- How far a name is spelled. -/
structure Progress where
  written : List Char
  /-- What was passed over since the last number. -/
  passed : Nat
  bias : Nat
  /-- How many characters have their place. -/
  placed : Nat

/-- One character of the name is passed over, or placed if its code point is the one whose turn it
is. -/
def visit (basics point : Nat) (p : Progress) (c : Char) : Progress :=
  if c.toNat < point then { p with passed := p.passed + 1 }
  else if c.toNat = point then
    { written := p.written ++ digits p.bias 36 p.passed
      passed := 0
      bias := nextBias p.passed (p.placed + 1) (p.placed = basics)
      placed := p.placed + 1 }
  else p

/-- The characters of a name are placed, one code point after another. -/
def placeAll (cs : List Char) (basics : Nat) : Nat → List Nat → Progress → Progress
  | _, [], p => p
  | reached, point :: points, p =>
    let ahead := { p with passed := p.passed + (point - reached) * (p.placed + 1) }
    let done := cs.foldl (visit basics point) ahead
    placeAll cs basics (point + 1) points { done with passed := done.passed + 1 }

/-- The code points of the characters that are not basic, in order. -/
def pointsOf (cs : List Char) : List Nat :=
  ((cs.filter (!isBasic ·)).map Char.toNat).mergeSort.eraseDups

/-- The spelling of a name. -/
def encode (cs : List Char) : List Char :=
  let basics := cs.filter isBasic
  let start : Progress := ⟨[], 0, 72, basics.length⟩
  basics ++ (if basics.isEmpty then [] else ['-']) ++
    (placeAll cs basics.length 128 (pointsOf cs) start).written

theorem encode_of_basic {cs : List Char} (h : ∀ c ∈ cs, isBasic c) (hne : cs ≠ []) :
    encode cs = cs ++ ['-'] := by
  have hf : cs.filter isBasic = cs := List.filter_eq_self.2 h
  have hn : cs.filter (!isBasic ·) = [] := List.filter_eq_nil_iff.2 fun c hc => by simp [h c hc]
  simp [encode, pointsOf, hf, hn, placeAll, hne]

end PanelExport.Punycode
