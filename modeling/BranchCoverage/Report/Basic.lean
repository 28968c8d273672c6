import BranchCoverage.Coverage.Exclusion

/-!
# Reports

A report is what a reader is shown of a measurement: the counts, the rate, the functions and the
targets, and where and when they come from.  It is detached from the analysis and the runs, so that
it can be printed without either.

Targets are handed to a report with the hidden ones already left out.  Everything else comes from
the coverage alone.
-/

namespace BranchCoverage

/-- What a reader is shown of a measurement. -/
structure Report where
  generatedAt : String
  runs : List String
  /-- The percentage of canonical branches that are covered. -/
  rate : Number.Binary
  canonicalCovered : Nat
  canonicalTotal : Nat
  bugs : Nat
  unknown : Nat
  summary : CaseTree.Summary
  /-- The names of the functions that some run could not map, in ascending order. -/
  unmapped : List String
  functions : List FunctionCoverage
  targets : List Target

namespace Report

/-- The report of a coverage, with the targets that are to be shown. -/
def ofCoverage (generatedAt : String) (coverage : Coverage) (targets : List Target) : Report :=
  { generatedAt
    runs := coverage.runs.map Run.Hits.run
    rate := coverage.rate
    canonicalCovered := coverage.canonicalCovered
    canonicalTotal := coverage.analysis.canonicalTotal
    bugs := coverage.analysis.bugsTotal
    unknown := coverage.analysis.unknownTotal
    summary := coverage.analysis.summary
    unmapped := coverage.unmapped.toList
    functions := coverage.functions
    targets }

end Report

end BranchCoverage
