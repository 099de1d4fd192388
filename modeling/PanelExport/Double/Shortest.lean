import PanelExport.Double.Basic

/-!
# The shortest decimal of a double

The reals that round to a double form an interval around it. Its shortest decimal is the point of
that interval on the coarsest decimal grid, the nearer one if a grid has two.
-/

namespace PanelExport

namespace Double

/-- A decimal number `digits · 10 ^ exponent`. -/
structure Decimal where
  digits : Nat
  exponent : Int

/-- The interval of the reals that round to a double, with the double itself, on the decimal grid
`10 ^ exponent`: each of the three is a whole number of `1 / unit` grid steps. -/
structure Interval where
  low : Nat
  value : Nat
  high : Nat
  unit : Nat
  closed : Bool

/-- The half distances to the neighbours bound the interval; below a power of two the lower
neighbour is nearer. An end rounds to the double if its mantissa is even. -/
def interval (mantissa : Nat) (exponent grid : Int) : Interval :=
  let below := if mantissa = Nat.pow 2 52 ∧ -1074 < exponent then 1 else 2
  let quarter := exponent - 2
  let scale := Nat.pow 2 quarter.toNat * Nat.pow 10 (-grid).toNat
  { low := (4 * mantissa - below) * scale
    value := 4 * mantissa * scale
    high := (4 * mantissa + 2) * scale
    unit := Nat.pow 2 (-quarter).toNat * Nat.pow 10 grid.toNat
    closed := mantissa % 2 = 0 }

/-- A grid point that rounds to the double. -/
def Interval.covers (i : Interval) (point : Nat) : Bool :=
  let p := point * i.unit
  if i.closed then i.low ≤ p && p ≤ i.high else i.low < p && p < i.high

/-- The grid point in the interval that is nearest to the double. -/
def Interval.nearest? (i : Interval) : Option Nat :=
  let point := i.value / i.unit
  match i.covers point, i.covers (point + 1) with
  | true, true => some (halfEven i.value i.unit)
  | true, false => some point
  | false, true => some (point + 1)
  | false, false => none

/-- A power of ten above the double. -/
def above (mantissa : Nat) (exponent : Int) : Int :=
  ((mantissa.log2 + 1 + exponent) * 30103).fdiv 100000 + 1

/-- The first hit on ever finer grids. Seventeen digits always suffice, so the search ends before
its last grid. -/
def search (mantissa : Nat) (exponent : Int) : Nat → Int → Decimal
  | 0, grid => ⟨(interval mantissa exponent grid).value, grid⟩
  | steps + 1, grid =>
    match (interval mantissa exponent grid).nearest? with
    | some digits => ⟨digits, grid⟩
    | none => search mantissa exponent steps (grid - 1)

/-- The shortest decimal that rounds to `mantissa · 2 ^ exponent`. -/
def shortest (mantissa : Nat) (exponent : Int) : Decimal :=
  if mantissa = 0 then ⟨0, 0⟩ else search mantissa exponent 24 (above mantissa exponent)

/-- A power of ten with at least two digits and always a sign. -/
def exponentText (e : Int) : String :=
  let digits := toString e.natAbs
  (if e < 0 then "e-" else "e+") ++ (if digits.length < 2 then "0" ++ digits else digits)

/-- A decimal is written out while its first digit stands at `10 ^ (-4)` up to `10 ^ 15`, with at
least one digit on each side of the point; further away it is written with a power of ten. -/
def Decimal.text (d : Decimal) : String :=
  let digits := (toString d.digits).toList
  let first := d.exponent + digits.length - 1
  let zeros (n : Int) := List.replicate n.toNat '0'
  if -4 ≤ first ∧ first < 16 then
    let whole := digits.take (first + 1).toNat
    let fraction := zeros (-first - 1) ++ digits.drop (first + 1).toNat
    let whole := if whole.isEmpty then ['0'] else whole ++ zeros d.exponent
    String.ofList (whole ++ '.' :: (if fraction.isEmpty then ['0'] else fraction))
  else
    let fraction := digits.drop 1
    let mantissa := digits.take 1 ++ (if fraction.isEmpty then [] else '.' :: fraction)
    String.ofList mantissa ++ exponentText first

/-- The shortest text that reads back as the number. -/
def text : Double → String
  | .nan => "nan"
  | .infinite s => if s then "-inf" else "inf"
  | .finite s m e _ => (if s then "-" else "") ++ (shortest m e).text

end Double

end PanelExport
