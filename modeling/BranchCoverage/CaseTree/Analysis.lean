import BranchCoverage.CaseTree.Dump
import BranchCoverage.Failure
import BranchCoverage.Outcome

/-!
# Static analysis

An analysis is the functions of one dump.  Everything else about it is computed from them: the
branches are those of the functions one after the other, and each total counts branches of one
kind.  No total depends on a test run.

A dump without a visible character is the output of a compilation that went wrong, and the only
dump that is refused.
-/

namespace BranchCoverage.CaseTree

structure Analysis where
  functions : List Function
  deriving DecidableEq, Repr, Inhabited

structure Summary where
  functions : Nat
  branches : Nat
  canonical : Nat
  bugs : Nat
  unknown : Nat
  excluded : Nat
  compilerGenerated : Nat
  deriving DecidableEq, Repr

namespace Analysis

def branches (analysis : Analysis) : List Branch :=
  analysis.functions.flatMap Function.branches

def count (analysis : Analysis) (wanted : Branch.Kind → Bool) : Nat :=
  countKind wanted analysis.branches

def canonicalTotal (analysis : Analysis) : Nat :=
  analysis.count Branch.Kind.isCanonical

def bugsTotal (analysis : Analysis) : Nat :=
  analysis.count Branch.Kind.isUnhandledInput

def unknownTotal (analysis : Analysis) : Nat :=
  analysis.count Branch.Kind.isUnknownCrash

def summary (analysis : Analysis) : Summary :=
  { functions := analysis.functions.length
    branches := analysis.branches.length
    canonical := analysis.canonicalTotal
    bugs := analysis.bugsTotal
    unknown := analysis.unknownTotal
    excluded := analysis.count Branch.Kind.isExcluded
    compilerGenerated := analysis.count Branch.Kind.isCompilerGenerated }

def dumpRecord (tally : Tally) : Record :=
  { level := .debug
    text := "case-tree dump: " ++ toString tally.parsed ++ " functions parsed, "
      ++ toString tally.skipped ++ " lines skipped" }

def ofDump (text : String) : Outcome Failure Analysis :=
  if Text.isBlankText text.toList then ⟨[], .error (.blank .dump none)⟩
  else
    let (functions, tally) := readDump text
    ⟨[dumpRecord tally], .ok { functions }⟩

/-- A dump with a visible character has an analysis, which holds the functions of the dump. -/
theorem result_ofDump_eq_ok_iff {text : String} {analysis : Analysis} :
    (ofDump text).result = .ok analysis ↔
      Text.isBlankText text.toList = false ∧ analysis = { functions := (readDump text).1 } := by
  rw [ofDump]
  cases Text.isBlankText text.toList with
  | true => simp
  | false => simp [eq_comm]

end Analysis

end BranchCoverage.CaseTree
