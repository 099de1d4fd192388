/-!
# Double precision numbers

A finite double is `± mantissa · 2 ^ exponent` in its one normal form. Every operation is done
exactly on whole numbers and then rounded once, to the nearest double and on a tie to the even one.

* `halfEven_mul_right`: a quotient that comes out whole is kept.
* `Double.neg_neg`: changing the sign twice gives the number back.
-/

namespace PanelExport

/-- The normal form: 53 bits, and fewer only at the least exponent. -/
def FitsDouble (mantissa : Nat) (exponent : Int) : Prop :=
  mantissa < Nat.pow 2 53 ∧ -1074 ≤ exponent ∧ exponent ≤ 971 ∧
    (Nat.pow 2 52 ≤ mantissa ∨ exponent = -1074)

instance (mantissa : Nat) (exponent : Int) : Decidable (FitsDouble mantissa exponent) := by
  unfold FitsDouble; infer_instance

/-- A double precision number. -/
inductive Double where
  | nan
  | infinite (negative : Bool)
  | finite (negative : Bool) (mantissa : Nat) (exponent : Int)
      (fits : FitsDouble mantissa exponent)
  deriving DecidableEq

/-- The whole number nearest to `a / b`; a half goes to the even neighbour. -/
def halfEven (a b : Nat) : Nat :=
  let q := a / b
  let r := a % b
  if 2 * r < b then q
  else if b < 2 * r then q + 1
  else if q % 2 = 0 then q
  else q + 1

theorem halfEven_mul_right (q : Nat) {b : Nat} (h : 0 < b) : halfEven (q * b) b = q := by
  simp [halfEven, h]

namespace Double

/-- A zero of either sign. -/
def zero (negative : Bool) : Double := .finite negative 0 (-1074) (by decide)

/-- The double with these parts; parts past the greatest finite double make an infinity. -/
def ofParts (negative : Bool) (mantissa : Nat) (exponent : Int) : Double :=
  if fits : FitsDouble mantissa exponent then .finite negative mantissa exponent fits
  else .infinite negative

/-- `a · 2 ^ (-e)` and `b`, both times the least power of two that makes them whole. -/
def scaled (a b : Nat) (e : Int) : Nat × Nat :=
  (a * Nat.pow 2 (-e).toNat, b * Nat.pow 2 e.toNat)

/-- The exponent at which `a / b` has 53 bits before the point, or the least exponent. -/
def place (a b : Nat) : Int :=
  let e := (a.log2 : Int) - b.log2 - 53
  let (n, d) := scaled a b e
  max (if n / d < Nat.pow 2 53 then e else e + 1) (-1074)

/-- The double nearest to `± a / b`; of two nearest ones, that with the even mantissa. -/
def ofQuotient (negative : Bool) (a b : Nat) : Double :=
  if a = 0 then zero negative
  else
    let e := place a b
    let (n, d) := scaled a b e
    let m := halfEven n d
    if m = Nat.pow 2 53 then ofParts negative (Nat.pow 2 52) (e + 1)
    else ofParts negative m e

/-- The double nearest to `± n · 2 ^ e`. -/
def ofBinary (negative : Bool) (n : Nat) (e : Int) : Double :=
  ofQuotient negative (n * Nat.pow 2 e.toNat) (Nat.pow 2 (-e).toNat)

/-- The double nearest to `± n · 10 ^ e`. As `1 ≤ n < 10 ^ (log2 n + 1)` unless `n` is zero, a
power outside the two bounds cannot lead to a finite double other than zero. -/
def ofDecimal (negative : Bool) (n : Nat) (e : Int) : Double :=
  if n = 0 ∨ e < -(400 + n.log2 : Int) then zero negative
  else if 400 < e then .infinite negative
  else ofQuotient negative (n * Nat.pow 10 e.toNat) (Nat.pow 10 (-e).toNat)

/-- The double nearest to a whole number. -/
def ofInt (n : Int) : Double :=
  ofQuotient (n < 0) n.natAbs 1

/-- The double nearest to `n / d`. -/
def ofRatio (n : Int) (d : Nat) : Double :=
  ofQuotient (n < 0) n.natAbs d

/-- The sign bit; not-a-number has none. -/
def isNegative : Double → Bool
  | .nan => false
  | .infinite s => s
  | .finite s _ _ _ => s

/-- The same number with the other sign. -/
def neg : Double → Double
  | .nan => .nan
  | .infinite s => .infinite !s
  | .finite s m e h => .finite (!s) m e h

/-- The mantissa with its sign, in units of `2 ^ unit`, for a unit no greater than the exponent. -/
def inUnits (negative : Bool) (mantissa : Nat) (exponent unit : Int) : Int :=
  let n := mantissa * Nat.pow 2 (exponent - unit).toNat
  if negative then -n else n

/-- The sum, rounded once. A zero sum is negative only if both terms are. -/
def add : Double → Double → Double
  | .nan, _ => .nan
  | _, .nan => .nan
  | .infinite s, .infinite t => if s = t then .infinite s else .nan
  | .infinite s, .finite .. => .infinite s
  | .finite .., .infinite t => .infinite t
  | .finite s m e _, .finite t n f _ =>
    let unit := min e f
    let sum := inUnits s m e unit + inUnits t n f unit
    if sum = 0 then zero (s && t) else ofBinary (sum < 0) sum.natAbs unit

/-- The product, rounded once. -/
def mul : Double → Double → Double
  | .nan, _ => .nan
  | _, .nan => .nan
  | .infinite s, .infinite t => .infinite (s ^^ t)
  | .infinite s, .finite t n _ _ => if n = 0 then .nan else .infinite (s ^^ t)
  | .finite s m _ _, .infinite t => if m = 0 then .nan else .infinite (s ^^ t)
  | .finite s m e _, .finite t n f _ => ofBinary (s ^^ t) (m * n) (e + f)

/-- The number without its fraction, for a finite one. -/
def trunc? : Double → Option Int
  | .nan => none
  | .infinite _ => none
  | .finite s m e _ =>
    let n := m * Nat.pow 2 e.toNat / Nat.pow 2 (-e).toNat
    some (if s then -n else n)

/-- The whole number that a finite double is, if it has no fraction. -/
def toInt? : Double → Option Int
  | .nan => none
  | .infinite _ => none
  | .finite s m e h =>
    if m % Nat.pow 2 (-e).toNat = 0 then trunc? (.finite s m e h) else none

/-- Neither of the two zeros. -/
def isNonzero : Double → Bool
  | .finite _ m _ _ => m ≠ 0
  | _ => true

theorem neg_neg (x : Double) : x.neg.neg = x := by
  cases x <;> simp [neg]

end Double

end PanelExport
