import BranchCoverage.Json.Document
import BranchCoverage.Number.Text
import BranchCoverage.Report.Basic

/-!
# Serialised reports

The serialised form of a report is one JSON object, for other programs to read.  Its members stand
in a fixed order, and a rate is written with the fewest digits that read back.
-/

namespace BranchCoverage

open Json

def Branch.Id.document (id : Branch.Id) : Document :=
  .object
    [("module_name", .text id.moduleName),
     ("func_name", .text id.functionName),
     ("case_index", .nat id.caseIndex),
     ("branch_index", .nat id.branchIndex)]

def CaseTree.Summary.document (summary : CaseTree.Summary) : Document :=
  .object
    [("total_functions", .nat summary.functions),
     ("total_branches", .nat summary.branches),
     ("canonical_total", .nat summary.canonical),
     ("bugs_total", .nat summary.bugs),
     ("unknown_total", .nat summary.unknown),
     ("excluded_total", .nat summary.excluded),
     ("compiler_generated_total", .nat summary.compilerGenerated)]

def FunctionCoverage.document (function : FunctionCoverage) : Document :=
  .object
    [("name", .text function.name),
     ("canonical_total", .nat function.total),
     ("canonical_covered", .nat function.covered)]

def Target.document (target : Target) : Document :=
  .object
    [("function", .text target.function),
     ("reason", .text target.reason.code),
     ("branches", .array (target.branches.map Branch.Id.document))]

namespace Report

def document (report : Report) : Document :=
  .object
    [("generated_at", .text report.generatedAt),
     ("runs", .array (report.runs.map .text)),
     ("coverage_percent", .number report.rate.text),
     ("canonical_covered", .nat report.canonicalCovered),
     ("canonical_total", .nat report.canonicalTotal),
     ("bugs_total", .nat report.bugs),
     ("unknown_total", .nat report.unknown),
     ("summary", report.summary.document),
     ("unmapped", .array (report.unmapped.map .text)),
     ("functions", .array (report.functions.map FunctionCoverage.document)),
     ("targets", .array (report.targets.map Target.document))]

def serialized (report : Report) : String :=
  report.document.pretty ++ "\n"

end Report

end BranchCoverage
