import BranchCoverage.Coverage.Rate
import BranchCoverage.Run.Hits

/-!
# Coverage

Runs are merged by "or": a branch is covered when any run hit it at least once.  Hit counts are
never added up, so the merge of two groups of runs is the union of their merges, and neither the
order of the runs nor a repetition among them matters.

The totals come from the analysis alone.  Runs decide only which branches are covered, and only
canonical branches are ever counted as covered, whatever else the runs hit.
-/

namespace BranchCoverage

open CaseTree RuntimeName

/-- The branches that runs hit at least once. -/
def Run.merge (runs : List Run.Hits) : Branch.IdSet :=
  .ofList <| (runs.flatMap Run.Hits.hits).filterMap fun hit =>
    if 0 < hit.count then some hit.id else none

/-- A branch is in the merge exactly when some run hit it. -/
theorem Run.mem_merge {runs : List Run.Hits} {id : Branch.Id} :
    id ∈ Run.merge runs ↔ ∃ run ∈ runs, ∃ hit ∈ run.hits, 0 < hit.count ∧ hit.id = id := by
  simp only [Run.merge, Branch.IdSet.mem_ofList, List.mem_filterMap, List.mem_flatMap,
    Option.ite_none_right_eq_some, Option.some.injEq]
  constructor
  · rintro ⟨hit, ⟨run, runMem, hitMem⟩, positive, same⟩
    exact ⟨run, runMem, hit, hitMem, positive, same⟩
  · rintro ⟨run, runMem, hit, hitMem, positive, same⟩
    exact ⟨hit, ⟨run, runMem, hitMem⟩, positive, same⟩

/-- An analysis together with runs of it. -/
structure Coverage where
  analysis : Analysis
  runs : List Run.Hits
  covered : Branch.IdSet := Run.merge runs
  /-- The covered branches are those of the runs, and no others. -/
  covered_eq : covered = Run.merge runs := by rfl

structure FunctionCoverage where
  name : String
  total : Nat
  covered : Nat
  deriving DecidableEq, Repr, Inhabited

def FunctionCoverage.rate (function : FunctionCoverage) : Number.Binary :=
  BranchCoverage.rate function.covered function.total

namespace Coverage

def ofRuns (analysis : Analysis) (runs : List Run.Hits) : Coverage :=
  { analysis, runs }

/-- The coverage of runs given by their artifacts.  The first run that cannot be used ends the
computation. -/
def ofArtifacts (analysis : Analysis) (scheme : Scheme) (runs : List Run.Artifacts) :
    Outcome Failure Coverage := do
  let hits ← runs.mapM fun run => run.hits analysis scheme
  return ofRuns analysis hits

def isCovered (coverage : Coverage) (branch : Branch) : Bool :=
  coverage.covered.contains branch.id

/-- A branch is covered when its identity is in the merge of the runs. -/
theorem isCovered_ofRuns_iff {analysis : Analysis} {runs : List Run.Hits} {branch : Branch} :
    (ofRuns analysis runs).isCovered branch = true ↔ branch.id ∈ Run.merge runs :=
  Std.ExtTreeSet.contains_iff_mem

/-- The number of canonical branches among `branches` that are covered. -/
def countCovered (coverage : Coverage) (branches : List Branch) : Nat :=
  branches.countP fun branch => branch.isCanonical && coverage.isCovered branch

def canonicalCovered (coverage : Coverage) : Nat :=
  coverage.countCovered coverage.analysis.branches

def rate (coverage : Coverage) : Number.Binary :=
  BranchCoverage.rate coverage.canonicalCovered coverage.analysis.canonicalTotal

def ofFunction (coverage : Coverage) (function : Function) : FunctionCoverage :=
  { name := function.name
    total := function.canonicalCount
    covered := coverage.countCovered function.branches }

def functions (coverage : Coverage) : List FunctionCoverage :=
  coverage.analysis.functions.map coverage.ofFunction

def unmapped (coverage : Coverage) : Std.ExtTreeSet String :=
  Std.ExtTreeSet.ofList (coverage.runs.flatMap Run.Hits.unmapped)

end Coverage

end BranchCoverage
