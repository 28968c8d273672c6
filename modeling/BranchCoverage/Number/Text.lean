import BranchCoverage.Number.Shortest

/-!
# Numbers as text

Two texts of a binary number occur in reports.

* `Binary.text` writes the shortest decimal that reads back.  It is positional, with at least one
  digit on either side of the point, when the first digit counts `10 ^ -5` to `10 ^ 15`; otherwise
  it is scientific, with a sign on every exponent and a point only between digits.
* `Binary.fixed` writes a given number of places behind the point, rounding the exact value, not
  the shortest decimal; a tie goes to the even digit.
-/

namespace BranchCoverage.Number

/-- The digits of a whole number, with zeros in front to make up `width` digits. -/
def padded (width n : Nat) : List Char :=
  let digits := Nat.toDigits 10 n
  List.replicate (width - digits.length) '0' ++ digits

namespace Decimal

def leastPositional : Int := -5

def greatestPositional : Int := 15

/-- The numeral with its point at the place that the exponent says. -/
def positional (d : Decimal) : List Char :=
  if d.exponent < 0 then
    ['0', '.'] ++ List.replicate (-d.exponent - 1).toNat '0' ++ d.digits
  else
    let wholeLength := d.exponent.toNat + 1
    let whole := d.digits.take wholeLength
    let fraction := d.digits.drop wholeLength
    whole ++ List.replicate (wholeLength - whole.length) '0' ++ ['.']
      ++ (if fraction.isEmpty then ['0'] else fraction)

def scientific (d : Decimal) : List Char :=
  let point := if d.digits.length ≤ 1 then [] else ['.']
  let sign := if d.exponent < 0 then '-' else '+'
  d.digits.take 1 ++ point ++ d.digits.drop 1 ++ ['e', sign]
    ++ Nat.toDigits 10 d.exponent.natAbs

def text (d : Decimal) : String :=
  String.ofList <|
    if leastPositional ≤ d.exponent ∧ d.exponent ≤ greatestPositional then d.positional
    else d.scientific

end Decimal

namespace Binary

/-- The shortest decimal text that reads back as the number. -/
def text (x : Binary) : String :=
  x.shortest.text

/-- The number rounded to `count` places behind the point. -/
def fixed (count : Nat) (x : Binary) : String :=
  let rounded := nearest (x.units * Nat.pow 10 count) (Nat.pow 10 x.places)
  String.ofList <|
    Nat.toDigits 10 (rounded / Nat.pow 10 count) ++ ['.']
      ++ padded count (rounded % Nat.pow 10 count)

end Binary

/-- Whole numbers keep one zero behind the point. -/
example : (Binary.ofNat 100).text = "100.0" := by decide +kernel

/-- A tie goes to the even digit: 0.25 and 0.75 to one place. -/
example : (Binary.ofRatio 1 4 0).fixed 1 = "0.2" ∧ (Binary.ofRatio 3 4 0).fixed 1 = "0.8" := by
  decide +kernel

end BranchCoverage.Number
