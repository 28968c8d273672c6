import BranchCoverage.Number.Binary

/-!
# The fewest digits that read back

A binary number is written with the fewest decimal digits that still read back as the same number,
and among the decimals of that length with the one nearest to it.

The reals that round to a number form an interval around it.  Its ends lie half a unit of the last
significand bit away, or a quarter of a unit below a power of two, where the next smaller numbers
lie twice as dense; they belong to the interval exactly when the significand is even.  `Interval`
holds the number and both ends counted in one common decimal unit, so that every comparison is one
of whole numbers.

The search starts on the coarsest decimal grid, the one that leaves a single digit, and takes the
first grid with a point inside the interval.  Only the two neighbours of the number need to be
tried on each grid: a grid with any point inside has one of these two inside.
-/

namespace BranchCoverage.Number

/-- A decimal numeral in scientific form: its digits, and the exponent of the first of them.  The
first digit is not zero and neither is the last, unless the numeral is the single digit zero. -/
structure Decimal where
  digits : List Char
  /-- The power of ten that the first digit counts. -/
  exponent : Int
  deriving DecidableEq, Repr

/-- The reals that round to a binary number, counted in units of `10 ^ scale`. -/
structure Interval where
  /-- The power of ten of the unit. -/
  scale : Int
  low : Nat
  value : Nat
  high : Nat
  /-- Whether the ends belong to the interval. -/
  closed : Bool
  deriving DecidableEq, Repr

namespace Interval

def of (x : Binary) : Interval :=
  let quarter : Binary := ⟨1, x.exponent - 2⟩
  let below := if x.significand = Nat.pow 2 (Binary.precision - 1) then 1 else 2
  { scale := -quarter.places
    low := (4 * x.significand - below) * quarter.units
    value := 4 * x.significand * quarter.units
    high := (4 * x.significand + 2) * quarter.units
    closed := x.significand % 2 = 0 }

def holds (range : Interval) (count : Nat) : Bool :=
  if range.closed then range.low ≤ count && count ≤ range.high
  else range.low < count && count < range.high

/-- The point of the grid of step `step` that is in the interval and nearest to the number, as a
multiple of the step.  Of two equally near points the even multiple is taken. -/
def nearestOn (range : Interval) (step : Nat) : Option Nat :=
  let lower := range.value / step
  let upper := lower + 1
  match range.holds (lower * step), range.holds (upper * step) with
  | false, false => none
  | true, false => some lower
  | false, true => some upper
  | true, true => some (nearest range.value step)

/-- The first grid among the steps `10 ^ power`, `10 ^ (power - 1)`, … that has a point in the
interval, with that point.  The step one always has: the number itself. -/
def search (range : Interval) : Nat → Nat × Nat
  | 0 => ((range.nearestOn 1).getD range.value, 0)
  | power + 1 =>
    match range.nearestOn (Nat.pow 10 (power + 1)) with
    | some multiple => (multiple, power + 1)
    | none => range.search power

end Interval

/-- A numeral without the zeros at its end; the last digit that is left may be a zero. -/
def dropFinalZeros (digits : List Char) : List Char :=
  match (digits.reverse.dropWhile (· = '0')).reverse with
  | [] => ['0']
  | kept => kept

/-- The shortest decimal that reads back as `x`, nearest to `x` among those. -/
def Binary.shortest (x : Binary) : Decimal :=
  if x.significand = 0 then ⟨['0'], 0⟩
  else
    let range := Interval.of x
    let (multiple, power) := range.search ((Nat.toDigits 10 range.value).length - 1)
    let digits := Nat.toDigits 10 multiple
    ⟨dropFinalZeros digits, range.scale + power + (digits.length - 1 : Nat)⟩

end BranchCoverage.Number
