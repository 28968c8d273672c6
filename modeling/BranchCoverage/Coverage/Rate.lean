import BranchCoverage.Number.Binary

/-!
# Coverage rates

A rate is a percentage, computed in the arithmetic of double precision: the number covered divided
by the total, times a hundred, each step rounded on its own.  Where there is nothing to cover,
everything is covered.
-/

namespace BranchCoverage

/-- The percentage that `covered` is of `total`, or a hundred when `total` is zero. -/
def rate (covered total : Nat) : Number.Binary :=
  if total = 0 then .ofNat 100
  else ((Number.Binary.ofNat covered).div (.ofNat total)).mul (.ofNat 100)

end BranchCoverage
