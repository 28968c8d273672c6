import BranchCoverage.Proofs.Coverage.Targets
import Mathlib.Algebra.GroupWithZero.Nat
import Mathlib.Data.List.Forall2

/-!
# The books balance

A report gives its numbers several times: as totals of the analysis, in the summary beside them, as
a row for each function, and as the lengths of the lists of targets.  They are computed apart from
each other, and they agree (`books_balance`), whatever the functions are called, whatever identities
their branches have, and whatever the runs hit.

Two facts carry the agreement.  A branch has exactly one kind, so the counts by kind add up to the
number of branches (`countKind_add`).  And a canonical branch is either covered or listed as
uncovered, so the two counts add up to the number of canonical branches, in any list of branches
(`Coverage.length_uncovered_add`): in those of one function, which gives the rows, and in those of
the whole analysis, which gives the totals.
-/

namespace BranchCoverage

open CaseTree

/-! ## Counting by kind -/

/-- Every branch is counted under one of five kinds, and under no two of them. -/
lemma countKind_add (branches : List Branch) :
    countKind Branch.Kind.isCanonical branches + countKind Branch.Kind.isUnhandledInput branches +
        countKind Branch.Kind.isUnknownCrash branches +
        countKind Branch.Kind.isExcluded branches +
        countKind Branch.Kind.isCompilerGenerated branches =
      branches.length := by
  induction branches with
  | nil => rfl
  | cons branch branches ih =>
    have one : (if branch.kind.isCanonical then 1 else 0) +
        (if branch.kind.isUnhandledInput then 1 else 0) +
        (if branch.kind.isUnknownCrash then 1 else 0) +
        (if branch.kind.isExcluded then 1 else 0) +
        (if branch.kind.isCompilerGenerated then 1 else 0) = 1 := by
      cases branch.kind <;> rfl
    simp only [countKind, List.countP_cons, List.length_cons] at ih ⊢
    omega

lemma countKind_eq_countP {wanted : Branch.Kind → Bool} {p : Branch.Kind → Prop}
    [DecidablePred p] (h : ∀ kind, wanted kind = true ↔ p kind) (branches : List Branch) :
    countKind wanted branches = branches.countP fun branch => p branch.kind := by
  apply List.countP_congr
  intro branch _
  rw [h, decide_eq_true_iff]

lemma CaseTree.Analysis.sum_canonicalCount (analysis : Analysis) :
    (analysis.functions.map Function.canonicalCount).sum = analysis.canonicalTotal := by
  rw [Analysis.canonicalTotal, Analysis.count, Analysis.branches, countKind, List.countP_flatMap]
  congr 1
  apply List.map_congr_left
  intro function _
  exact function.canonicalCount_eq

/-! ## The summary -/

/-- A summary describes an analysis: it repeats the totals of the analysis, and it counts the
functions, the branches, and the branches by kind.  Unknown crashes are the rest of the branches. -/
structure CaseTree.Summary.Describes (summary : Summary) (analysis : Analysis) : Prop where
  canonicalTotal : summary.canonical = analysis.canonicalTotal
  bugsTotal : summary.bugs = analysis.bugsTotal
  unknownTotal : summary.unknown = analysis.unknownTotal
  functions : summary.functions = analysis.functions.length
  branches : summary.branches = analysis.branches.length
  canonical : summary.canonical = analysis.branches.countP fun branch => branch.kind = .canonical
  bugs : summary.bugs = analysis.branches.countP fun branch => branch.kind = .unhandledInput
  excluded : summary.excluded = analysis.branches.countP fun branch =>
    branch.kind = .noClauses ∨ branch.kind = .optimizerArtifact
  compilerGenerated : summary.compilerGenerated =
    analysis.branches.countP fun branch => branch.kind = .compilerGenerated

lemma CaseTree.Analysis.describes_summary (analysis : Analysis) :
    analysis.summary.Describes analysis where
  canonicalTotal := rfl
  bugsTotal := rfl
  unknownTotal := rfl
  functions := rfl
  branches := rfl
  canonical := countKind_eq_countP @Branch.Kind.isCanonical_iff analysis.branches
  bugs := countKind_eq_countP @Branch.Kind.isUnhandledInput_iff analysis.branches
  excluded := countKind_eq_countP @Branch.Kind.isExcluded_iff analysis.branches
  compilerGenerated :=
    countKind_eq_countP @Branch.Kind.isCompilerGenerated_iff analysis.branches

/-! ## Covered and uncovered branches -/

/-- A row of the table and the targets of its function balance: one target, and no second one, is
for uncovered branches exactly when the row is not full, and then it lists as many branches as the
row lacks. -/
structure FunctionCoverage.Balances (row : FunctionCoverage) (targets : List Target) : Prop where
  one : (targets.filter fun target => target.reason = .uncovered).length ≤ 1
  exists_iff : (∃ target ∈ targets, target.reason = .uncovered) ↔ row.covered < row.total
  length : ∀ target ∈ targets, target.reason = .uncovered →
    target.branches.length + row.covered = row.total

namespace Coverage

section Uncovered

variable (coverage : Coverage)

/-- A canonical branch is listed as uncovered or counted as covered. -/
lemma length_uncovered_add (branches : List Branch) :
    (Target.concerned coverage .uncovered branches).length + coverage.countCovered branches =
      countKind Branch.Kind.isCanonical branches := by
  have concerns : Reason.uncovered.concerns coverage =
      fun branch => branch.isCanonical && !coverage.isCovered branch := rfl
  have uncovered : (Target.concerned coverage .uncovered branches).length =
      (branches.filter Branch.isCanonical).countP fun branch => !coverage.isCovered branch := by
    rw [Target.concerned, ← List.countP_eq_length_filter, List.countP_filter, concerns]
    simp only [Bool.and_comm]
  have covered : coverage.countCovered branches =
      (branches.filter Branch.isCanonical).countP coverage.isCovered := by
    rw [countCovered, List.countP_filter]
    simp only [Bool.and_comm]
  have canonical : countKind Branch.Kind.isCanonical branches =
      (branches.filter Branch.isCanonical).length := by
    rw [countKind, List.countP_eq_length_filter]
    rfl
  have either := List.length_eq_countP_add_countP coverage.isCovered
    (l := branches.filter Branch.isCanonical)
  simp only [Bool.not_eq_true, Bool.decide_eq_false] at either
  rw [uncovered, covered, canonical, either, Nat.add_comm]

lemma sum_covered : (coverage.functions.map FunctionCoverage.covered).sum =
    coverage.canonicalCovered := by
  rw [canonicalCovered, countCovered, Analysis.branches, List.countP_flatMap, functions,
    List.map_map]
  rfl

lemma sum_total : (coverage.functions.map FunctionCoverage.total).sum =
    coverage.analysis.canonicalTotal := by
  rw [← Analysis.sum_canonicalCount, functions, List.map_map]
  rfl

/-- The covered branches of a row and those that the targets of its function list as uncovered are
the total of the row. -/
lemma uncovered_add_covered (function : Function) :
    (Target.concerned coverage .uncovered function.branches).length +
        (coverage.ofFunction function).covered =
      (coverage.ofFunction function).total := by
  have total : (coverage.ofFunction function).total = function.canonicalCount := rfl
  rw [total, function.canonicalCount_eq]
  exact coverage.length_uncovered_add function.branches

lemma balances_ofFunction (function : Function) :
    (coverage.ofFunction function).Balances (Target.ofFunction coverage function) := by
  have row := coverage.uncovered_add_covered function
  refine ⟨?_, ?_, ?_⟩
  · rw [Target.filter_ofFunction]
    cases Target.of? coverage function .uncovered <;> simp
  · rw [Target.exists_mem_ofFunction_iff, ← List.length_pos_iff]
    omega
  · intro target htarget uncovered
    rw [Target.branches_of_mem_ofFunction htarget, uncovered, List.length_map, row]

end Uncovered

/-! ## The report -/

/-- **The books balance.**  For any functions and any runs, the rows of the table add up to the
totals; the targets of each function balance with its row; the targets for uncovered branches list
together what the covered branches lack of the total, and those for unhandled inputs and unknown
crashes the branches that are counted as such; and the summary, which repeats the totals, counts
every branch once, by its kind. -/
theorem books_balance (functions : List Function) (runs : List Run.Hits) :
    let analysis : Analysis := { functions }
    let coverage := ofRuns analysis runs
    let listed (reason : Reason) := (Target.listed reason coverage.targets).length
    let summary := analysis.summary
    (coverage.functions.map FunctionCoverage.total).sum = analysis.canonicalTotal ∧
    (coverage.functions.map FunctionCoverage.covered).sum = coverage.canonicalCovered ∧
    List.Forall₂ FunctionCoverage.Balances coverage.functions coverage.targetsByFunction ∧
    coverage.targetsByFunction.flatten = coverage.targets ∧
    listed .uncovered + coverage.canonicalCovered = analysis.canonicalTotal ∧
    listed .unhandledInput = analysis.bugsTotal ∧
    listed .unknownCrash = analysis.unknownTotal ∧
    summary.Describes analysis ∧
    summary.canonical + summary.bugs + summary.unknown + summary.excluded +
      summary.compilerGenerated = summary.branches := by
  intro analysis coverage listed summary
  have lengths : ∀ reason, listed reason =
      (Target.concerned coverage reason analysis.branches).length := by
    intro reason
    simp only [listed]
    rw [listed_targets, List.length_map]
    rfl
  have byKind : ∀ (reason : Reason) (wanted : Branch.Kind → Bool),
      (reason.concerns coverage = fun branch => wanted branch.kind) →
      listed reason = analysis.count wanted := by
    intro reason wanted same
    rw [lengths, Target.concerned, same, ← List.countP_eq_length_filter]
    rfl
  have rows : List.Forall₂ FunctionCoverage.Balances coverage.functions
      coverage.targetsByFunction := by
    rw [Coverage.functions, targetsByFunction, List.forall₂_map_left_iff,
      List.forall₂_map_right_iff, List.forall₂_same]
    exact fun function _ => coverage.balances_ofFunction function
  have uncovered : listed .uncovered + coverage.canonicalCovered = analysis.canonicalTotal := by
    rw [lengths]
    exact coverage.length_uncovered_add analysis.branches
  exact ⟨coverage.sum_total, coverage.sum_covered, rows, coverage.flatten_targetsByFunction,
    uncovered, byKind .unhandledInput _ rfl, byKind .unknownCrash _ rfl,
    analysis.describes_summary, countKind_add analysis.branches⟩

end Coverage

end BranchCoverage
