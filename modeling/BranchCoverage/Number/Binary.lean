/-!
# Binary numbers of 53 significant bits

Coverage rates are computed in the arithmetic of double precision: each operation gives the number
of 53 significant bits that is nearest to the exact result, and of two equally near ones the one
whose significand is even.  A `Binary` is such a number as data, so that rates can be printed and
reasoned about without leaving `Nat`.

The exponent is unbounded.  Rates are quotients and products of counts below `2 ^ 64`, and these
stay far inside the exponent range of a double, so neither overflow nor gradual underflow arises.
Rates are never negative either, so there is no sign.

Every inexact step of the library's arithmetic, binary or decimal, is the choice of the whole number
nearest to a quotient (`nearest`).
-/

namespace BranchCoverage.Number

/-- The whole number nearest to `num / den`; of two equally near ones, the even one. -/
def nearest (num den : Nat) : Nat :=
  let quotient := num / den
  let twice := 2 * (num % den)
  if twice < den then quotient
  else if den < twice then quotient + 1
  else if quotient % 2 = 0 then quotient else quotient + 1

/-- The number `significand * 2 ^ exponent`.  In a number that an operation returns, the
significand is zero or has exactly 53 bits. -/
structure Binary where
  significand : Nat
  /-- The power of two that the significand is scaled by. -/
  exponent : Int
  deriving DecidableEq, Repr, Inhabited

namespace Binary

def precision : Nat := 53

def zero : Binary := ⟨0, 0⟩

/-- `num / (den * 2 ^ exponent)` as a numerator and a denominator. -/
def scaledDown (num den : Nat) (exponent : Int) : Nat × Nat :=
  (num * Nat.pow 2 (-exponent).toNat, den * Nat.pow 2 exponent.toNat)

/-- The exponent at which `num / den` has a whole part of exactly 53 bits.  Comparing the bit
lengths of numerator and denominator leaves two candidates. -/
def exponentFor (num den : Nat) : Int :=
  let candidate : Int := (num.log2 : Int) - den.log2 - (precision - 1 : Nat)
  let (scaledNum, scaledDen) := scaledDown num den candidate
  if scaledNum < Nat.pow 2 (precision - 1) * scaledDen then candidate - 1 else candidate

/-- The number nearest to `num / den * 2 ^ shift`. -/
def ofRatio (num den : Nat) (shift : Int) : Binary :=
  if num = 0 then zero
  else
    let exponent := exponentFor num den
    let (scaledNum, scaledDen) := scaledDown num den exponent
    let significand := nearest scaledNum scaledDen
    if significand = Nat.pow 2 precision then
      ⟨Nat.pow 2 (precision - 1), exponent + 1 + shift⟩
    else ⟨significand, exponent + shift⟩

def ofNat (n : Nat) : Binary :=
  ofRatio n 1 0

def mul (x y : Binary) : Binary :=
  ofRatio (x.significand * y.significand) 1 (x.exponent + y.exponent)

/-- The number nearest to a quotient.  The divisor is not zero where this is used. -/
def div (x y : Binary) : Binary :=
  ofRatio x.significand y.significand (x.exponent - y.exponent)

def places (x : Binary) : Nat :=
  (-x.exponent).toNat

/-- The number `x`, counted in units of its last decimal place: `x = units / 10 ^ places`, exactly,
because `2 ^ -n = 5 ^ n / 10 ^ n`. -/
def units (x : Binary) : Nat :=
  x.significand * Nat.pow 2 x.exponent.toNat * Nat.pow 5 x.places

end Binary

end BranchCoverage.Number
