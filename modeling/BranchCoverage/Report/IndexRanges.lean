/-!
# Index ranges

The branch indexes of a target are printed in short: a run of consecutive indexes is written by its
first and its last, as in `0, 2-4, 7`.  Each run is as long as it can be, so a list has one range
more than it has neighbours that do not follow each other.
-/

namespace BranchCoverage

/-- The indexes from `first` to `last`, both included. -/
structure IndexRange where
  first : Nat
  /-- The last index, which is not below the first. -/
  last : Nat
  deriving DecidableEq, Repr

namespace IndexRange

/-- Puts an index in front of ranges: into the first one, if that begins just behind it. -/
def addInFront (index : Nat) : List IndexRange → List IndexRange
  | [] => [⟨index, index⟩]
  | range :: ranges =>
    if range.first = index + 1 then ⟨index, range.last⟩ :: ranges
    else ⟨index, index⟩ :: range :: ranges

def ofIndexes (indexes : List Nat) : List IndexRange :=
  indexes.foldr addInFront []

def text (range : IndexRange) : String :=
  if range.first = range.last then toString range.first
  else toString range.first ++ "-" ++ toString range.last

def textOfIndexes (indexes : List Nat) : String :=
  ", ".intercalate ((ofIndexes indexes).map text)

end IndexRange

end BranchCoverage
