import BranchCoverage.Proofs.CaseTree.Kind
import BranchCoverage.Proofs.Coverage.Share
import BranchCoverage.Proofs.Coverage.Targets

/-!
# What runs can take off the list

A dump alone already has targets: every canonical branch is still to cover, every fallback that may
be a defect is listed, and so is every branch of a function that the compiler made up.  Runs change
this list in one way only.  They take covered branches off the targets for uncovered branches, and a
target with no branch left goes with them (`targets_ofArtifacts_baseline`).

That the other targets stay is no matter of course for functions that the compiler made up, whose
branches are listed only as long as no run covers them.  But runs cover canonical branches alone, so
a covered identity has a name from the source (`isGenerated_eq_false_of_mem_covered`), and a branch
with such an identity belongs to no function that the compiler made up, even where a dump repeats
its names.
-/

namespace BranchCoverage

open CaseTree RuntimeName

/-! ## Taking covered branches off a target -/

namespace Target

variable {covered : Branch.IdSet} {target : Target}

/-- What is left of a target when branches are covered.  A target for uncovered branches loses them,
and is dropped when it has no other branch; a target for any other reason stays as it is. -/
def remaining? (covered : Branch.IdSet) (target : Target) : Option Target :=
  if target.reason = .uncovered then
    match target.branches.filter fun id => !covered.contains id with
    | [] => none
    | branches => some { target with branches }
  else some target

lemma remaining?_of_ne (h : target.reason ≠ .uncovered) :
    remaining? covered target = some target :=
  if_neg h

lemma remaining?_of_eq (h : target.reason = .uncovered) :
    remaining? covered target =
      if target.branches.filter (fun id => !covered.contains id) = [] then none
      else some
        { target with branches := target.branches.filter fun id => !covered.contains id } := by
  rw [remaining?, if_pos h]
  split
  · rename_i none
    rw [if_pos none]
  · rename_i some
    rw [if_neg some]

/-- Covered branches take no target for another reason off a list. -/
lemma filter_filterMap_remaining? (covered : Branch.IdSet) (targets : List Target) :
    (targets.filterMap (remaining? covered)).filter (fun target => target.reason ≠ .uncovered) =
      targets.filter fun target => target.reason ≠ .uncovered := by
  induction targets with
  | nil => rfl
  | cons target targets ih =>
    by_cases uncovered : target.reason = .uncovered
    · rw [List.filterMap_cons, remaining?_of_eq uncovered]
      split_ifs <;> simpa [uncovered] using ih
    · rw [List.filterMap_cons, remaining?_of_ne uncovered]
      simpa [uncovered] using ih

end Target

namespace Coverage

variable {text : String} {analysis : Analysis} {scheme : Scheme} {runs : List Run.Artifacts}
  {coverage : Coverage} {function : Function} {branch : Branch}

/-! ## The coverage of no run -/

lemma isCovered_ofRuns_nil (analysis : Analysis) (branch : Branch) :
    (ofRuns analysis []).isCovered branch = false := by
  rw [← Bool.not_eq_true, isCovered_ofRuns_iff, Run.mem_merge]
  simp

/-! ## What runs cover in a dump -/

/-- A covered identity has a name from the source. -/
lemma isGenerated_eq_false_of_mem_covered (hdump : (Analysis.ofDump text).result = .ok analysis)
    (h : (ofArtifacts analysis scheme runs).result = .ok coverage) {id : Branch.Id}
    (hid : id ∈ coverage.covered) : Name.isGenerated id.moduleName id.functionName = false := by
  obtain ⟨-, rfl⟩ := Analysis.result_ofDump_eq_ok_iff.1 hdump
  obtain ⟨-, rfl⟩ := result_ofArtifacts_eq_ok_iff.1 h
  obtain ⟨run, -, function, hf, branch, taken, rfl⟩ := mem_merge_contributions.1 hid
  obtain ⟨hb, canonical⟩ := List.mem_filter.1 (List.mem_of_mem_take taken)
  have fits := Function.kindFitsName_of_mem_readDump hf hb
  exact fits.canonical (Branch.Kind.isCanonical_iff.1 canonical)

/-- No run covers a branch of a function that the compiler made up. -/
lemma isCovered_eq_false_of_compilerGenerated
    (hdump : (Analysis.ofDump text).result = .ok analysis)
    (h : (ofArtifacts analysis scheme runs).result = .ok coverage)
    (hf : function ∈ analysis.functions) (hb : branch ∈ function.branches)
    (generated : branch.kind = .compilerGenerated) :
    coverage.isCovered branch = false := by
  rw [← Bool.not_eq_true]
  intro covered
  have source := isGenerated_eq_false_of_mem_covered hdump h
    (Std.ExtTreeSet.contains_iff_mem.1 covered)
  obtain ⟨-, rfl⟩ := Analysis.result_ofDump_eq_ok_iff.1 hdump
  have made := (Function.kindFitsName_of_mem_readDump hf hb).compilerGenerated generated
  rw [source] at made
  cases made

/-! ## The targets of a function -/

/-- A reason concerns the branches that it concerns without any run, but for the covered ones if it
is that they are uncovered. -/
lemma concerned_eq_filter (hdump : (Analysis.ofDump text).result = .ok analysis)
    (h : (ofArtifacts analysis scheme runs).result = .ok coverage)
    (hf : function ∈ analysis.functions) (reason : Reason) :
    Target.concerned coverage reason function.branches =
      if reason = .uncovered then
        (Target.concerned (ofRuns analysis []) reason function.branches).filter fun branch =>
          !coverage.isCovered branch
      else Target.concerned (ofRuns analysis []) reason function.branches := by
  unfold Target.concerned
  cases reason with
  | uncovered =>
    rw [if_pos rfl, List.filter_filter]
    apply List.filter_congr
    intro branch _
    simp [Reason.concerns, isCovered_ofRuns_nil, Bool.and_comm]
  | unhandledInput => rfl
  | unknownCrash => rfl
  | compilerGenerated =>
    rw [if_neg nofun]
    apply List.filter_congr
    intro branch hb
    show (branch.kind.isCompilerGenerated && !coverage.isCovered branch) =
      (branch.kind.isCompilerGenerated && !(ofRuns analysis []).isCovered branch)
    by_cases generated : branch.kind = .compilerGenerated
    · rw [isCovered_eq_false_of_compilerGenerated hdump h hf hb generated, isCovered_ofRuns_nil]
    · have other : branch.kind.isCompilerGenerated = false := by
        cases kind : branch.kind <;> simp_all [Branch.Kind.isCompilerGenerated]
      rw [other, Bool.false_and, Bool.false_and]

/-- The target of a function for a reason is what is left of the target without any run. -/
lemma of?_eq_bind_remaining? (hdump : (Analysis.ofDump text).result = .ok analysis)
    (h : (ofArtifacts analysis scheme runs).result = .ok coverage)
    (hf : function ∈ analysis.functions) (reason : Reason) :
    Target.of? coverage function reason =
      (Target.of? (ofRuns analysis []) function reason).bind
        (Target.remaining? coverage.covered) := by
  have concerned := concerned_eq_filter hdump h hf reason
  by_cases uncovered : reason = .uncovered
  · subst uncovered
    rw [if_pos rfl] at concerned
    have left : ((Target.concerned (ofRuns analysis []) .uncovered function.branches).map
          Branch.id).filter (fun id => !coverage.covered.contains id) =
        (Target.concerned coverage .uncovered function.branches).map Branch.id := by
      rw [concerned, List.filter_map]
      rfl
    rw [Target.of?_eq_ite, Target.of?_eq_ite]
    by_cases none : Target.concerned (ofRuns analysis []) .uncovered function.branches = []
    · have fewer : Target.concerned coverage .uncovered function.branches = [] := by
        rw [concerned, none, List.filter_nil]
      rw [if_pos none, if_pos fewer, Option.bind_none]
    · rw [if_neg none, Option.bind_some, Target.remaining?_of_eq rfl]
      simp only [left, List.map_eq_nil_iff]
  · rw [if_neg uncovered] at concerned
    rw [Target.of?_eq_ite, Target.of?_eq_ite, concerned]
    split_ifs
    · rfl
    · exact (Target.remaining?_of_ne uncovered).symm

/-- **Runs only shorten the list.**  The coverage of a dump by any runs has the totals and the
summary of its coverage by no run.  Its targets are the targets of no run, in their order, but that
the covered branches are taken off those for uncovered branches; the targets for all other reasons
are the same. -/
theorem targets_ofArtifacts_baseline (hdump : (Analysis.ofDump text).result = .ok analysis)
    (h : (ofArtifacts analysis scheme runs).result = .ok coverage) :
    ∃ unrun, (ofArtifacts analysis scheme []).result = .ok unrun ∧
      coverage.analysis.canonicalTotal = unrun.analysis.canonicalTotal ∧
      coverage.analysis.bugsTotal = unrun.analysis.bugsTotal ∧
      coverage.analysis.unknownTotal = unrun.analysis.unknownTotal ∧
      coverage.analysis.summary = unrun.analysis.summary ∧
      (coverage.targets.filter fun target => target.reason ≠ .uncovered) =
        (unrun.targets.filter fun target => target.reason ≠ .uncovered) ∧
      coverage.targets = unrun.targets.filterMap (Target.remaining? coverage.covered) := by
  have same : coverage.analysis = analysis := by
    obtain ⟨-, rfl⟩ := result_ofArtifacts_eq_ok_iff.1 h
    rfl
  have targets : coverage.targets =
      (ofRuns analysis []).targets.filterMap (Target.remaining? coverage.covered) := by
    unfold Coverage.targets
    rw [same, List.filterMap_flatMap]
    apply List.flatMap_congr
    intro function hf
    unfold Target.ofFunction
    rw [List.filterMap_filterMap]
    congr 1
    funext reason
    exact of?_eq_bind_remaining? hdump h hf reason
  refine ⟨ofRuns analysis [], result_ofArtifacts_eq_ok_iff.2 ⟨by simp, rfl⟩, ?_⟩
  refine ⟨congrArg Analysis.canonicalTotal same, congrArg Analysis.bugsTotal same,
    congrArg Analysis.unknownTotal same, congrArg Analysis.summary same, ?_, targets⟩
  rw [targets, Target.filter_filterMap_remaining?]

/-- A run covers the first branch of a name that the dump has twice.  The target of the one function
loses a branch, that of the other is gone, and a function of the builtin module keeps its target
although its definition ran. -/
theorem targets_ofArtifacts_baseline_repeated_name :
    let text := "Main.f = [] (%concase A 0) (%concase B 1)\nMain.f = [] (%concase C 0)\n"
      ++ "_builtin.g = [] (%concase D 0)"
    let run : Run.Artifacts := ⟨"unit",
      "title=\"line 1 char 1 count 3\" title=\"line 1 char 9 count 0\" title=\"line 2 count 1\"",
      "(define MainC-46f\n(define _builtinC-46g\n"⟩
    ∃ analysis coverage, (Analysis.ofDump text).result = .ok analysis ∧
      (ofArtifacts analysis .uniform [run]).result = .ok coverage ∧
      coverage.targets =
        [⟨"Main.f", .uncovered, [⟨"Main", "f", 0, 1⟩]⟩,
          ⟨"_builtin.g", .compilerGenerated, [⟨"_builtin", "g", 0, 0⟩]⟩] := by
  intro text run
  have dump : (Analysis.ofDump text).result = .ok { functions := (readDump text).1 } :=
    Analysis.result_ofDump_eq_ok_iff.2 ⟨by decide +kernel, rfl⟩
  have usable : ∀ run' ∈ [run],
      Profile.blankArtifact? run'.annotated run'.definitions = none := by decide +kernel
  have runs : (ofArtifacts { functions := (readDump text).1 } .uniform [run]).result = .ok _ :=
    result_ofArtifacts_eq_ok_iff.2 ⟨usable, rfl⟩
  obtain ⟨unrun, none, -, -, -, -, -, remaining⟩ := targets_ofArtifacts_baseline dump runs
  obtain ⟨-, rfl⟩ := result_ofArtifacts_eq_ok_iff.1 none
  refine ⟨_, _, dump, runs, ?_⟩
  rw [remaining]
  decide +kernel

end Coverage

end BranchCoverage
