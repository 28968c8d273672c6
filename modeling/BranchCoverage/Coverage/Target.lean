import BranchCoverage.Coverage.Basic

/-!
# Targets

A target is something left to do about one function: branches that no run has hit, a fallback that
may be a defect, a fallback nobody can explain, or branches of a function that the compiler made up.
Targets follow the dump, and within one function the order of the reasons.  A reason that concerns
no branch of a function gives no target.
-/

namespace BranchCoverage

open CaseTree

inductive Reason where
  | uncovered
  | unhandledInput
  | unknownCrash
  /-- Branches of a function that the compiler made up, which no run has hit. -/
  | compilerGenerated
  deriving DecidableEq, Repr, Inhabited

namespace Reason

/-- The reasons, in the order in which the targets of one function are listed. -/
def all : List Reason := [uncovered, unhandledInput, unknownCrash, compilerGenerated]

def label : Reason → String
  | uncovered => "uncovered"
  | unhandledInput => "unhandled-input"
  | unknownCrash => "unknown-crash"
  | compilerGenerated => "compiler-generated"

def code : Reason → String
  | uncovered => "uncovered_canonical"
  | unhandledInput => "unhandled_input"
  | unknownCrash => "unknown_crash"
  | compilerGenerated => "compiler_generated"

/-- Whether a branch is worth a look for this reason. -/
def concerns (reason : Reason) (coverage : Coverage) (branch : Branch) : Bool :=
  match reason with
  | uncovered => branch.isCanonical && !coverage.isCovered branch
  | unhandledInput => branch.kind.isUnhandledInput
  | unknownCrash => branch.kind.isUnknownCrash
  | compilerGenerated => branch.kind.isCompilerGenerated && !coverage.isCovered branch

end Reason

/-- The branches of one function that are worth a look for one reason. -/
structure Target where
  function : String
  reason : Reason
  branches : List Branch.Id
  deriving DecidableEq, Repr, Inhabited

namespace Target

/-- The target of a function for a reason, if the reason concerns any branch. -/
def of? (coverage : Coverage) (function : Function) (reason : Reason) : Option Target :=
  match function.branches.filter (reason.concerns coverage) with
  | [] => none
  | branches => some { function := function.name, reason, branches := branches.map Branch.id }

def ofFunction (coverage : Coverage) (function : Function) : List Target :=
  Reason.all.filterMap (of? coverage function)

end Target

def Coverage.targets (coverage : Coverage) : List Target :=
  coverage.analysis.functions.flatMap (Target.ofFunction coverage)

end BranchCoverage
