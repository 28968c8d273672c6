import BranchCoverage.Proofs.Coverage.Targets
import Mathlib.Data.List.Forall2

/-!
# Folding runs

Runs of one program may be measured together or in groups, in any order, and one of them more than
once.  The merge of two groups is the union of their merges (`Run.merge_append`), and everything
that a report says depends on the runs only as a set (`Coverage.agree_ofRuns`): the covered
branches, the totals, the table of functions, the unmapped names and the targets.

More runs never lose anything (`Coverage.extends_append`).  What is covered stays covered, so every
count of covered branches can only grow, and the branches that a function still has to cover are a
part of those it had before, in the same order.
-/

namespace BranchCoverage

open CaseTree

/-! ## Merging -/

namespace Run

variable {runs others : List Hits}

/-- The merge of two groups of runs is the union of their merges. -/
theorem merge_append (runs others : List Hits) :
    merge (runs ++ others) = merge runs ∪ merge others := by
  apply Std.ExtTreeSet.ext_mem
  intro id
  rw [Std.ExtTreeSet.mem_union_iff, mem_merge, mem_merge, mem_merge]
  simp only [List.mem_append, or_and_right, exists_or]

/-- Neither the order of the runs nor a repetition among them matters. -/
theorem merge_congr (same : ∀ run, run ∈ runs ↔ run ∈ others) : merge runs = merge others := by
  apply Std.ExtTreeSet.ext_mem
  intro id
  rw [mem_merge, mem_merge]
  simp only [same]

end Run

namespace Coverage

variable {a b : Coverage} {analysis : Analysis} {runs others : List Run.Hits}

/-! ## What depends on the covered branches alone -/

lemma isCovered_ofRuns_congr (analysis : Analysis) (same : Run.merge runs = Run.merge others) :
    (ofRuns analysis runs).isCovered = (ofRuns analysis others).isCovered := by
  funext branch
  rw [Bool.eq_iff_iff, isCovered_ofRuns_iff, isCovered_ofRuns_iff, same]

lemma countCovered_congr (same : a.isCovered = b.isCovered) : a.countCovered = b.countCovered := by
  funext branches
  rw [countCovered, countCovered, same]

lemma ofFunction_congr (same : a.isCovered = b.isCovered) : a.ofFunction = b.ofFunction := by
  funext function
  rw [ofFunction, ofFunction, countCovered_congr same]

lemma targets_ofFunction_congr (same : a.isCovered = b.isCovered) :
    Target.ofFunction a = Target.ofFunction b := by
  have concerns : ∀ reason : Reason, reason.concerns a = reason.concerns b := by
    intro reason
    funext branch
    cases reason <;> simp [Reason.concerns, same]
  funext function
  rw [Target.ofFunction, Target.ofFunction]
  congr 1
  funext reason
  rw [Target.of?, Target.of?, concerns]

/-- Two coverages agree in everything that a report is made of. -/
structure Agree (a b : Coverage) : Prop where
  covered : a.covered = b.covered
  canonicalTotal : a.analysis.canonicalTotal = b.analysis.canonicalTotal
  canonicalCovered : a.canonicalCovered = b.canonicalCovered
  bugsTotal : a.analysis.bugsTotal = b.analysis.bugsTotal
  unknownTotal : a.analysis.unknownTotal = b.analysis.unknownTotal
  functions : a.functions = b.functions
  unmapped : a.unmapped = b.unmapped
  targets : a.targets = b.targets

/-- Coverages of one analysis by the same set of runs agree. -/
theorem agree_ofRuns (same : ∀ run, run ∈ runs ↔ run ∈ others) :
    Agree (ofRuns analysis runs) (ofRuns analysis others) := by
  have merged : Run.merge runs = Run.merge others := Run.merge_congr same
  have isCovered := isCovered_ofRuns_congr analysis merged
  have unmapped : (ofRuns analysis runs).unmapped = (ofRuns analysis others).unmapped := by
    apply Std.ExtTreeSet.ext_mem
    intro name
    simp only [Coverage.unmapped, ofRuns, Std.ExtTreeSet.mem_ofList, List.contains_iff_mem,
      List.mem_flatMap, same]
  exact {
    covered := merged
    canonicalTotal := rfl
    canonicalCovered := congrFun (countCovered_congr isCovered) analysis.branches
    bugsTotal := rfl
    unknownTotal := rfl
    functions := congrArg analysis.functions.map (ofFunction_congr isCovered)
    unmapped
    targets := congrArg analysis.functions.flatMap (targets_ofFunction_congr isCovered) }

/-! ## What grows with the covered branches -/

lemma countCovered_mono (more : ∀ branch, a.isCovered branch = true → b.isCovered branch = true)
    (branches : List Branch) : a.countCovered branches ≤ b.countCovered branches := by
  apply List.countP_mono_left
  intro branch _ h
  obtain ⟨canonical, covered⟩ := Bool.and_eq_true_iff.1 h
  exact Bool.and_eq_true_iff.2 ⟨canonical, more branch covered⟩

lemma countCovered_le (branches : List Branch) :
    a.countCovered branches ≤ countKind Branch.Kind.isCanonical branches := by
  apply List.countP_mono_left
  intro branch _ h
  exact (Bool.and_eq_true_iff.1 h).1

/-- What is left to cover is a part of what was left before, in the same order. -/
lemma concerned_uncovered_sublist
    (more : ∀ branch, a.isCovered branch = true → b.isCovered branch = true)
    (branches : List Branch) :
    (Target.concerned b .uncovered branches).Sublist (Target.concerned a .uncovered branches) := by
  apply List.monotone_filter_right
  intro branch h
  obtain ⟨canonical, missing⟩ := Bool.and_eq_true_iff.1 h
  refine Bool.and_eq_true_iff.2 ⟨canonical, ?_⟩
  cases covered : a.isCovered branch with
  | false => rfl
  | true => simp [more branch covered] at missing

/-- A coverage extends another one of the same functions: nothing that was covered is lost, no count
of covered branches is smaller, and no function has anything new to cover. -/
structure Extends (more fewer : Coverage) : Prop where
  covered : ∀ id ∈ fewer.covered, id ∈ more.covered
  canonicalCovered : fewer.canonicalCovered ≤ more.canonicalCovered
  functions : List.Forall₂ (fun row longer => longer.name = row.name ∧ longer.total = row.total ∧
    row.covered ≤ longer.covered) fewer.functions more.functions
  uncovered : List.Forall₂ (fun targets shorter =>
    (Target.listed .uncovered shorter).Sublist (Target.listed .uncovered targets))
    fewer.targetsByFunction more.targetsByFunction

/-- Further runs extend a coverage. -/
theorem extends_append (analysis : Analysis) (runs further : List Run.Hits) :
    Extends (ofRuns analysis (runs ++ further)) (ofRuns analysis runs) := by
  have covered : ∀ id ∈ Run.merge runs, id ∈ Run.merge (runs ++ further) := by
    intro id hid
    rw [Run.merge_append, Std.ExtTreeSet.mem_union_iff]
    exact .inl hid
  have isCovered : ∀ branch, (ofRuns analysis runs).isCovered branch = true →
      (ofRuns analysis (runs ++ further)).isCovered branch = true := by
    intro branch h
    exact isCovered_ofRuns_iff.2 (covered _ (isCovered_ofRuns_iff.1 h))
  refine ⟨covered, countCovered_mono isCovered analysis.branches, ?_, ?_⟩
  · rw [functions, functions, List.forall₂_map_left_iff, List.forall₂_map_right_iff]
    apply List.forall₂_same.2
    intro function _
    exact ⟨rfl, rfl, countCovered_mono isCovered function.branches⟩
  · rw [targetsByFunction, targetsByFunction, List.forall₂_map_left_iff,
      List.forall₂_map_right_iff]
    apply List.forall₂_same.2
    intro function _
    rw [Target.listed_ofFunction, Target.listed_ofFunction]
    exact (concerned_uncovered_sublist isCovered function.branches).map Branch.id

/-! ## Any order, any grouping, any multiplicity -/

/-- **Runs fold freely.**  Groups of runs merge by union; a report says the same of any list of runs
with the same members, in whatever order and however often each of them occurs; and a report of
further runs extends the report of the runs alone, without counting more as covered than there
is.  The targets of the functions, which are compared one function at a time, make up the targets of
the report. -/
theorem ofRuns_folds_freely (analysis : Analysis) (runs further : List Run.Hits) :
    Run.merge (runs ++ further) = Run.merge runs ∪ Run.merge further ∧
    (∀ others : List Run.Hits, (∀ run, run ∈ others ↔ run ∈ runs) →
      Agree (ofRuns analysis others) (ofRuns analysis runs)) ∧
    Extends (ofRuns analysis (runs ++ further)) (ofRuns analysis runs) ∧
    (ofRuns analysis (runs ++ further)).canonicalCovered ≤ analysis.canonicalTotal ∧
    ∀ measured : List Run.Hits,
      (ofRuns analysis measured).targetsByFunction.flatten = (ofRuns analysis measured).targets :=
  ⟨Run.merge_append runs further, fun _ same => agree_ofRuns same,
    extends_append analysis runs further, countCovered_le analysis.branches,
    fun measured => (ofRuns analysis measured).flatten_targetsByFunction⟩

/-- Two runs in the other order, and one of them twice: a branch that only a hit without a count
names is not covered, and the fallback that was hit is not counted. -/
theorem ofRuns_folds_freely_repeated :
    let id (index : Nat) : Branch.Id := ⟨"Main", "f", 0, index⟩
    let analysis : Analysis :=
      { functions := [
          { name := "Main.f"
            branches := [⟨id 0, .canonical, "A"⟩, ⟨id 1, .canonical, "B"⟩,
              ⟨id 2, .unhandledInput, "_"⟩]
            hasFallback := true }] }
    let unit : Run.Hits := { run := "unit", hits := [⟨id 0, 2⟩, ⟨id 1, 0⟩], unmapped := ["Main.g"] }
    let props : Run.Hits := { run := "props", hits := [⟨id 2, 5⟩], unmapped := [] }
    (∀ run, run ∈ [props, unit, props] ↔ run ∈ [unit, props]) ∧
      Agree (ofRuns analysis [props, unit, props]) (ofRuns analysis [unit, props]) ∧
      (ofRuns analysis [props, unit, props]).functions = [⟨"Main.f", 2, 1⟩] := by
  intro id analysis unit props
  have same : ∀ run, run ∈ [props, unit, props] ↔ run ∈ [unit, props] := by
    intro run
    simp only [List.mem_cons, List.not_mem_nil, or_false]
    tauto
  have agree := (ofRuns_folds_freely analysis [unit, props] []).2.1 [props, unit, props] same
  refine ⟨same, agree, ?_⟩
  rw [agree.functions]
  decide +kernel

end Coverage

end BranchCoverage
