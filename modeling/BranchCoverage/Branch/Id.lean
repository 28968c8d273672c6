import Std.Data.ExtTreeSet

/-!
# Branch identities

A branch is identified by the module and the name of its function, the number of the case
expression it belongs to, and its place in that case expression.

Identities are ordered by these four, in this order; names compare by code point.  The order is
lawful, so the identities of a set can be listed in ascending order, and two sets with the same
members are equal: `IdSet` is the extensional ordered set of the standard library.
-/

namespace BranchCoverage.Branch

structure Id where
  moduleName : String
  functionName : String
  caseIndex : Nat
  branchIndex : Nat
  deriving DecidableEq, Repr, Inhabited

namespace Id

/-- The lexicographic comparison by module, function, case and branch. -/
def order : Id → Id → Ordering :=
  compareLex (compareOn moduleName) <| compareLex (compareOn functionName) <|
    compareLex (compareOn caseIndex) (compareOn branchIndex)

instance : Ord Id where
  compare := order

instance : Std.TransOrd Id :=
  inferInstanceAs <| Std.TransCmp <|
    compareLex (compareOn moduleName) <| compareLex (compareOn functionName) <|
      compareLex (compareOn caseIndex) (compareOn branchIndex)

instance : Std.LawfulEqOrd Id where
  eq_of_compare {a b} h := by
    have parts : (compareLex (compareOn moduleName) <| compareLex (compareOn functionName) <|
        compareLex (compareOn caseIndex) (compareOn branchIndex)) a b = .eq := h
    simp only [compareLex_eq_eq, compareOn, Std.LawfulEqOrd.compare_eq_iff_eq] at parts
    obtain ⟨sameModule, sameFunction, sameCase, sameBranch⟩ := parts
    cases a
    cases b
    simp_all

/-- The text of an identity: `Main.f#0:1`, or `f#0:1` for a function of the nameless module. -/
def text (id : Id) : String :=
  let qualified :=
    if id.moduleName.isEmpty then id.functionName else id.moduleName ++ "." ++ id.functionName
  qualified ++ "#" ++ toString id.caseIndex ++ ":" ++ toString id.branchIndex

end Id

abbrev IdSet := Std.ExtTreeSet Id

def IdSet.ofList (ids : List Id) : IdSet :=
  Std.ExtTreeSet.ofList ids

@[simp] theorem IdSet.mem_ofList {ids : List Id} {id : Id} : id ∈ IdSet.ofList ids ↔ id ∈ ids := by
  simp [IdSet.ofList, Std.ExtTreeSet.mem_ofList]

end BranchCoverage.Branch
