import BranchCoverage.Branch.Basic
import BranchCoverage.Name

/-!
# Compiled functions

A function of the case-tree dump is its fully qualified name and its branches in branch order.  At
most the last branch is the fallback of the case expression.

Counting is always counting branches by kind; the canonical branches come up so often that they
have a list of their own.
-/

namespace BranchCoverage.CaseTree

structure Function where
  name : String
  branches : List Branch
  /-- Whether the last branch is a fallback. -/
  hasFallback : Bool
  deriving DecidableEq, Repr, Inhabited

namespace Function

def moduleName (function : Function) : String :=
  Name.moduleName function.name

def functionName (function : Function) : String :=
  Name.functionName function.name

def isGenerated (function : Function) : Bool :=
  Name.isGenerated function.moduleName function.functionName

def canonicalBranches (function : Function) : List Branch :=
  function.branches.filter Branch.isCanonical

def canonicalCount (function : Function) : Nat :=
  function.canonicalBranches.length

end Function

def countKind (wanted : Branch.Kind → Bool) (branches : List Branch) : Nat :=
  branches.countP fun branch => wanted branch.kind

/-- The canonical branches are counted like any other kind. -/
theorem Function.canonicalCount_eq (function : Function) :
    function.canonicalCount = countKind Branch.Kind.isCanonical function.branches := by
  rw [countKind, List.countP_eq_length_filter]
  rfl

end BranchCoverage.CaseTree
