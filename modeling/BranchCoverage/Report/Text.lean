import BranchCoverage.Number.Text
import BranchCoverage.Report.Basic
import BranchCoverage.Report.IndexRanges

/-!
# Text reports

The text of a report is a header with the totals, a table of the functions that are not fully
covered, and a list of the targets.  A part with nothing in it is left out together with the empty
line in front of it.

Columns are padded to a number of characters; a text that is longer is written whole.
-/

namespace BranchCoverage

def textLine (text : String) : String :=
  text ++ "\n"

namespace Report

/-- A text, followed by blanks to make up `width` characters. -/
def padRight (width : Nat) (text : String) : String :=
  text ++ String.ofList (List.replicate (width - text.length) ' ')

/-- A text, behind blanks to make up `width` characters. -/
def padLeft (width : Nat) (text : String) : String :=
  String.ofList (List.replicate (width - text.length) ' ') ++ text

def tableRow (name branches rate : String) : String :=
  textLine (padRight 50 name ++ " " ++ padLeft 8 branches ++ " " ++ padLeft 8 rate)

def fraction (part whole : Nat) : String :=
  toString part ++ "/" ++ toString whole

def header (report : Report) : String :=
  textLine ("Branch coverage: " ++ report.rate.fixed 1 ++ "% ("
      ++ fraction report.canonicalCovered report.canonicalTotal ++ " canonical branches, "
      ++ toString report.runs.length ++ " runs)")
    ++ textLine ("Bugs (unhandled input): " ++ toString report.bugs)
    ++ textLine ("Unknown crashes:        " ++ toString report.unknown)
    ++ textLine ("Excluded (impossible):  " ++ toString report.summary.excluded)
    ++ (if report.unmapped.isEmpty then ""
        else textLine ("Unmapped functions:     " ++ toString report.unmapped.length))

def functionRow (function : FunctionCoverage) : String :=
  tableRow function.name (fraction function.covered function.total) (function.rate.fixed 1 ++ "%")

/-- The table of the functions that are not fully covered. -/
def functionTable (report : Report) : String :=
  match report.functions.filter fun function => function.covered < function.total with
  | [] => ""
  | partly =>
    textLine "" ++ tableRow "FUNCTION" "BRANCHES" "RATE"
      ++ textLine (String.ofList (List.replicate 68 '-'))
      ++ String.join (partly.map functionRow)

def targetLine (target : Target) : String :=
  textLine ("  [" ++ target.reason.label ++ "] " ++ target.function ++ "  branches: "
    ++ IndexRange.textOfIndexes (target.branches.map Branch.Id.branchIndex))

def targetList (report : Report) : String :=
  match report.targets with
  | [] => ""
  | targets => textLine "" ++ textLine "Targets:" ++ String.join (targets.map targetLine)

def text (report : Report) : String :=
  report.header ++ report.functionTable ++ report.targetList

end Report

def CaseTree.Summary.text (summary : CaseTree.Summary) : String :=
  textLine ("Functions:           " ++ toString summary.functions)
    ++ textLine ("Branches:            " ++ toString summary.branches)
    ++ textLine ("  canonical:         " ++ toString summary.canonical)
    ++ textLine ("  unhandled input:   " ++ toString summary.bugs)
    ++ textLine ("  unknown crash:     " ++ toString summary.unknown)
    ++ textLine ("  excluded:          " ++ toString summary.excluded)
    ++ textLine ("  compiler generated: " ++ toString summary.compilerGenerated)

end BranchCoverage
