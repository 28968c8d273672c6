import BranchCoverage.Proofs.Attribution.Ownership
import BranchCoverage.Proofs.Coverage.Targets
import BranchCoverage.Proofs.Run.Observation
import BranchCoverage.Report.Basic

/-!
# Functions that are unmapped

A function that a run could not map is not the same as one that did not run, and a report names it.
Attribution looks for a definition in two steps, for the whole runtime name first and then for
definitions that end in it.  Together the steps ask one question, whether some definition ends in
the runtime name (`Run.Artifacts.Carries`), since a name ends in itself.  The unmapped functions of
a run are those for which the answer is no, in dump order (`Run.Artifacts.unmapped_contribution`).

A report lists what any of the runs left unmapped, in ascending order and each name once
(`Coverage.pairwise_unmapped`, `Coverage.mem_toList_unmapped_iff`).  A function may be in this list
and be covered all the same, by a run that could map it.  If no run could, it has no covered branch
and is a target with all branches that count (`Coverage.unmapped_ofArtifacts`).
-/

namespace BranchCoverage

open CaseTree RuntimeName

/-! ## Definitions that carry a function -/

namespace Run.Artifacts

variable {artifacts : Artifacts} {scheme : Scheme} {function : Function}

/-- Some definition of the run ends in the runtime name of the function. -/
def Carries (artifacts : Artifacts) (scheme : Scheme) (function : Function) : Prop :=
  ∃ definition ∈ Definition.scan artifacts.definitions,
    (scheme.runtimeName function.name).toList <:+ definition.runtimeName.toList

instance (artifacts : Artifacts) (scheme : Scheme) (function : Function) :
    Decidable (artifacts.Carries scheme function) :=
  inferInstanceAs (Decidable (∃ definition ∈ _, _))

/-- A function is attributed to some definition exactly if a definition carries it. -/
lemma definition?_eq_none_iff :
    Attribution.definition? scheme (Definition.scan artifacts.definitions) function = none ↔
      ¬ artifacts.Carries scheme function := by
  have attributed : Attribution.of? (.ofTexts artifacts.annotated artifacts.definitions) scheme
      function = none ↔ _ := Attribution.of?_eq_none_iff
  rw [Attribution.of?_eq_map, Option.map_eq_none_iff, Profile.definitions_ofTexts] at attributed
  rw [attributed, Carries]
  push Not
  rfl

/-- The unmapped functions of a run are those that no definition carries, in dump order. -/
theorem unmapped_contribution (artifacts : Artifacts) (analysis : Analysis) (scheme : Scheme) :
    (artifacts.contribution analysis scheme).unmapped =
      (analysis.functions.filter fun function => ¬ artifacts.Carries scheme function).map
        Function.name := by
  rw [contribution, Hits.unmapped_ofProfile, ← List.filterMap_eq_map, List.filterMap_filter]
  apply List.filterMap_congr
  intro function _
  rw [Profile.definitions_ofTexts]
  simp [← definition?_eq_none_iff]

/-- Functions of one name are mapped or unmapped together. -/
lemma name_mem_unmapped_iff {analysis : Analysis} (hf : function ∈ analysis.functions) :
    function.name ∈ (artifacts.contribution analysis scheme).unmapped ↔
      ¬ artifacts.Carries scheme function := by
  rw [unmapped_contribution, List.mem_map]
  constructor
  · rintro ⟨twin, unmapped, same⟩
    have none := of_decide_eq_true (List.mem_filter.1 unmapped).2
    rwa [Carries, same] at none
  · intro none
    exact ⟨function, List.mem_filter.2 ⟨hf, decide_eq_true none⟩, rfl⟩

/-- A run executes no branch of a function that it does not carry. -/
lemma branchesRun_eq_zero (h : ¬ artifacts.Carries scheme function) :
    artifacts.branchesRun scheme function = 0 := by
  rw [branchesRun, definition?_eq_none_iff.2 h]

end Run.Artifacts

/-! ## The names in a report -/

namespace Coverage

variable {analysis : Analysis} {scheme : Scheme} {runs : List Run.Artifacts} {coverage : Coverage}
  {function : Function}

/-- The unmapped names are listed in ascending order, and each of them once. -/
lemma pairwise_unmapped (coverage : Coverage) : coverage.unmapped.toList.Pairwise (· < ·) := by
  have ordered : coverage.unmapped.toList.Pairwise fun a b => compare a b = .lt :=
    Std.ExtTreeSet.ordered_toList
  exact ordered.imp fun before => compareOfLessAndEq_eq_lt.1 before

/-- The names that are listed are those that some run left unmapped. -/
lemma mem_toList_unmapped_iff {name : String} :
    name ∈ coverage.unmapped.toList ↔ ∃ run ∈ coverage.runs, name ∈ run.unmapped := by
  rw [Std.ExtTreeSet.mem_toList, unmapped, Std.ExtTreeSet.mem_ofList, List.contains_iff_mem,
    List.mem_flatMap]

/-! ## What follows for coverage -/

/-- Runs execute no branch of a function that none of them carries. -/
lemma mostRun_eq_zero (h : ∀ run ∈ runs, ¬ run.Carries scheme function) :
    mostRun scheme runs function = 0 := by
  apply Nat.le_zero.1
  apply foldr_max_le
  intro n hn
  obtain ⟨run, hrun, rfl⟩ := List.mem_map.1 hn
  exact Nat.le_of_eq (Run.Artifacts.branchesRun_eq_zero (h run hrun))

section Measured

variable (measured : (ofArtifacts analysis scheme runs).result = .ok coverage)

include measured

lemma analysis_eq : coverage.analysis = analysis := by
  obtain ⟨-, rfl⟩ := result_ofArtifacts_eq_ok_iff.1 measured
  rfl

/-- Where branches have identities of their own, no branch of a function that no run carries is
covered. -/
lemma isCovered_eq_false (distinct : analysis.Distinct) (hf : function ∈ analysis.functions)
    (h : ∀ run ∈ runs, ¬ run.Carries scheme function) {branch : Branch}
    (hb : branch ∈ function.branches) : coverage.isCovered branch = false := by
  obtain ⟨-, rfl⟩ := result_ofArtifacts_eq_ok_iff.1 measured
  rw [← Bool.not_eq_true, isCovered_iff_mem_take distinct hf hb, mostRun_eq_zero h, List.take_zero]
  exact List.not_mem_nil

lemma ofFunction_eq (distinct : analysis.Distinct) (hf : function ∈ analysis.functions)
    (h : ∀ run ∈ runs, ¬ run.Carries scheme function) :
    coverage.ofFunction function = ⟨function.name, function.canonicalCount, 0⟩ := by
  obtain ⟨-, rfl⟩ := result_ofArtifacts_eq_ok_iff.1 measured
  rw [ofFunction, countCovered_eq distinct hf, mostRun_eq_zero h]

/-- A function that no run carries is a target with all its canonical branches. -/
lemma uncovered_mem_targets (distinct : analysis.Distinct) (hf : function ∈ analysis.functions)
    (h : ∀ run ∈ runs, ¬ run.Carries scheme function) (some : function.canonicalBranches ≠ []) :
    ⟨function.name, .uncovered, function.canonicalBranches.map Branch.id⟩ ∈ coverage.targets := by
  have concerned : Target.concerned coverage .uncovered function.branches =
      function.canonicalBranches := by
    apply List.filter_congr
    intro branch hb
    rw [Reason.concerns, isCovered_eq_false measured distinct hf h hb, Bool.not_false,
      Bool.and_true]
  rw [targets, analysis_eq measured]
  refine List.mem_flatMap.2 ⟨function, hf, ?_⟩
  rw [Target.mem_ofFunction_iff, Target.of?_eq_ite, concerned, if_neg some]

end Measured

/-- **What a report says to be unmapped.**  Each run leaves exactly those functions unmapped of
which the runtime name ends no definition of the run, in dump order; and a report lists what some
run left unmapped, in ascending order and each name once.  Where branches have identities of their
own, a function that every run left unmapped has no covered branch, and all its canonical branches
are in a target. -/
theorem unmapped_ofArtifacts (h : (ofArtifacts analysis scheme runs).result = .ok coverage) :
    coverage.runs.map Run.Hits.unmapped = runs.map (fun run =>
      (analysis.functions.filter fun function => ¬ run.Carries scheme function).map
        Function.name) ∧
    (∀ (generatedAt : String) (targets : List Target),
      let listed := (Report.ofCoverage generatedAt coverage targets).unmapped
      listed.Pairwise (· < ·) ∧
        ∀ name, name ∈ listed ↔ ∃ run ∈ coverage.runs, name ∈ run.unmapped) ∧
    (analysis.Distinct → ∀ (place : Nat) (function : Function),
      analysis.functions[place]? = some function →
      (∀ run ∈ coverage.runs, function.name ∈ run.unmapped) →
      coverage.functions[place]? = some ⟨function.name, function.canonicalCount, 0⟩ ∧
        (function.canonicalBranches ≠ [] →
          ⟨function.name, .uncovered, function.canonicalBranches.map Branch.id⟩ ∈
            coverage.targets)) := by
  have contributed : coverage.runs = runs.map fun run => run.contribution analysis scheme := by
    obtain ⟨-, rfl⟩ := result_ofArtifacts_eq_ok_iff.1 h
    rfl
  refine ⟨?_, fun _ _ => ⟨pairwise_unmapped _, fun _ => mem_toList_unmapped_iff⟩, ?_⟩
  · rw [contributed, List.map_map]
    apply List.map_congr_left
    intro run _
    exact run.unmapped_contribution analysis scheme
  · intro distinct place function here unmapped
    have hf := List.mem_of_getElem? here
    have none : ∀ run ∈ runs, ¬ run.Carries scheme function := by
      intro run hrun
      rw [contributed, List.forall_mem_map] at unmapped
      exact (Run.Artifacts.name_mem_unmapped_iff hf).1 (unmapped run hrun)
    refine ⟨?_, uncovered_mem_targets h distinct hf none⟩
    rw [functions, analysis_eq h, List.getElem?_map, here, Option.map_some,
      ofFunction_eq h distinct hf none]

/-- Two runs that map one of three functions each, the second one by the end of a definition.  Two
names are listed that a run could map, and only the function that neither could map has no covered
branch. -/
theorem unmapped_ofArtifacts_two_of_three :
    let function (name : String) : Function := .ofBody name " [] (%concase A 0)".toList
    let analysis : Analysis :=
      { functions := [function "Main.h", function "Main.g", function "Main.f"] }
    let unit : Run.Artifacts := ⟨"unit", "title=\"line 1 char 1 count 1\"", "(define MainC-46f 0)"⟩
    let props : Run.Artifacts :=
      ⟨"props", "title=\"line 1 char 1 count 1\"", "(define libMainC-46g 0)"⟩
    ∃ coverage, (ofArtifacts analysis .uniform [unit, props]).result = .ok coverage ∧
      coverage.runs.map Run.Hits.unmapped = [["Main.h", "Main.g"], ["Main.h", "Main.f"]] ∧
      (Report.ofCoverage "now" coverage []).unmapped = ["Main.f", "Main.g", "Main.h"] ∧
      coverage.functions.map FunctionCoverage.covered = [0, 1, 1] ∧
      ⟨"Main.h", .uncovered, [⟨"Main", "h", 0, 0⟩]⟩ ∈ coverage.targets := by
  intro function analysis unit props
  let coverage := ofRuns analysis <|
    [unit, props].map fun run => run.contribution analysis .uniform
  have measured : (ofArtifacts analysis .uniform [unit, props]).result = .ok coverage :=
    result_ofArtifacts_eq_ok_iff.2 ⟨by decide +kernel, rfl⟩
  obtain ⟨perRun, -, never⟩ := unmapped_ofArtifacts measured
  have unmapped : coverage.runs.map Run.Hits.unmapped =
      [["Main.h", "Main.g"], ["Main.h", "Main.f"]] :=
    perRun.trans (by decide +kernel)
  refine ⟨coverage, measured, unmapped, by decide +kernel, by decide +kernel, ?_⟩
  have ids : (function "Main.h").canonicalBranches.map Branch.id = [⟨"Main", "h", 0, 0⟩] := by
    decide +kernel
  obtain ⟨-, target⟩ := never (by decide +kernel) 0 (function "Main.h") rfl (by decide +kernel)
  exact ids ▸ target (by decide +kernel)

end Coverage

end BranchCoverage
