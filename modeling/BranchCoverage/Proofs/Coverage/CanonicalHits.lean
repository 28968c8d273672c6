import BranchCoverage.Proofs.Coverage.Targets
import Mathlib.Data.Set.Basic

/-!
# What coverage sees of the runs

A run may hit more than what counts: a fallback that is a defect, a branch of a function that the
compiler made up, an identity that no branch of the analysis has, or a branch with a count of zero.
All but the last are in the merge of the runs, so everything that is computed from the merge has to
ask again whether a branch counts.

It does.  The part of the runs that coverage sees are the canonical branches of the analysis that
some run hit at least once (`Run.canonicalHits`).  Two lists of runs that agree in these have the
same counts, the same table of functions and the same targets for every reason but that the compiler
made a function up; and since the targets for uncovered branches tell which branches were hit, two
lists that do not agree can be told apart by their targets (`Coverage.sameCoverage_iff`).

Nothing is asked of identities.  Whether a canonical branch is covered is a question about its
identity, also where another branch, of whatever kind, has the same one.
-/

namespace BranchCoverage

open CaseTree

/-- The identities of the canonical branches of an analysis that runs hit at least once. -/
def Run.canonicalHits (analysis : Analysis) (runs : List Run.Hits) : Set Branch.Id :=
  {id | (∃ branch ∈ analysis.branches, branch.kind = .canonical ∧ branch.id = id) ∧
    ∃ run ∈ runs, ∃ hit ∈ run.hits, 0 < hit.count ∧ hit.id = id}

namespace Coverage

variable {a b : Coverage} {analysis : Analysis} {runs others : List Run.Hits}
  {branches : List Branch} {function : Function} {reason : Reason}

/-! ## Coverages that agree on canonical branches -/

/-- Two coverages say the same of the canonical branches of a list. -/
def AgreeOn (a b : Coverage) (branches : List Branch) : Prop :=
  ∀ branch ∈ branches, branch.isCanonical = true → a.isCovered branch = b.isCovered branch

lemma AgreeOn.of_function (agree : AgreeOn a b analysis.branches)
    (hf : function ∈ analysis.functions) : AgreeOn a b function.branches :=
  fun branch hb => agree branch (List.mem_flatMap.2 ⟨function, hf, hb⟩)

lemma AgreeOn.countCovered_eq (agree : AgreeOn a b branches) :
    a.countCovered branches = b.countCovered branches := by
  apply List.countP_congr
  intro branch hb
  cases canonical : branch.isCanonical with
  | false => simp
  | true => rw [agree branch hb canonical]

/-- Only for functions that the compiler made up does a reason ask whether a branch that does not
count is covered. -/
lemma AgreeOn.concerned_eq (agree : AgreeOn a b branches) (h : reason ≠ .compilerGenerated) :
    Target.concerned a reason branches = Target.concerned b reason branches := by
  cases reason with
  | uncovered =>
    apply List.filter_congr
    intro branch hb
    show (branch.isCanonical && !a.isCovered branch) = (branch.isCanonical && !b.isCovered branch)
    cases canonical : branch.isCanonical with
    | false => rfl
    | true => rw [agree branch hb canonical]
  | unhandledInput => rfl
  | unknownCrash => rfl
  | compilerGenerated => exact absurd rfl h

lemma AgreeOn.of?_eq (agree : AgreeOn a b function.branches) (h : reason ≠ .compilerGenerated) :
    Target.of? a function reason = Target.of? b function reason := by
  rw [Target.of?_eq_ite, Target.of?_eq_ite, agree.concerned_eq h]

lemma AgreeOn.exempt_ofFunction_eq (agree : AgreeOn a b function.branches) :
    Target.exempt (Target.ofFunction a function) =
      Target.exempt (Target.ofFunction b function) := by
  rw [Target.exempt, Target.exempt, Target.ofFunction, Target.ofFunction, List.filter_filterMap,
    List.filter_filterMap]
  apply List.filterMap_congr
  intro reason _
  by_cases generated : reason = .compilerGenerated
  · have dropped : ∀ coverage : Coverage, (Target.of? coverage function reason).filter
        (fun target => target.reason ≠ .compilerGenerated) = none := by
      intro coverage
      rw [Option.filter_eq_none_iff]
      intro target made
      simp [Target.reason_of_of?_eq_some made, generated]
    rw [dropped, dropped]
  · rw [agree.of?_eq generated]

lemma AgreeOn.exempt_targets_eq (same : a.analysis = b.analysis)
    (agree : AgreeOn a b a.analysis.branches) :
    Target.exempt a.targets = Target.exempt b.targets := by
  rw [Target.exempt, Target.exempt, targets, targets, ← same, List.filter_flatMap,
    List.filter_flatMap]
  apply List.flatMap_congr
  intro function hf
  exact (agree.of_function hf).exempt_ofFunction_eq

/-- The targets for uncovered branches tell which canonical branches are covered. -/
lemma mem_listed_uncovered_iff {coverage : Coverage} {branch : Branch}
    (hb : branch ∈ coverage.analysis.branches) (canonical : branch.isCanonical = true) :
    branch.id ∈ Target.listed .uncovered (Target.exempt coverage.targets) ↔
      coverage.isCovered branch = false := by
  rw [Target.listed_exempt (by decide), listed_targets, Target.concerned, List.mem_map]
  constructor
  · rintro ⟨twin, listed, same⟩
    have missing : coverage.isCovered twin = false := by
      simpa using (Bool.and_eq_true_iff.1 (List.mem_filter.1 listed).2).2
    rw [isCovered, ← same]
    exact missing
  · intro missing
    exact ⟨branch, List.mem_filter.2 ⟨hb, by simp [Reason.concerns, canonical, missing]⟩, rfl⟩

/-! ## What the runs decide -/

/-- Two coverages agree in the number of covered branches, in the table of functions, and in all
targets but those of functions that the compiler made up. -/
structure SameCoverage (a b : Coverage) : Prop where
  canonicalCovered : a.canonicalCovered = b.canonicalCovered
  functions : a.functions = b.functions
  targets : Target.exempt a.targets = Target.exempt b.targets

lemma AgreeOn.sameCoverage (same : a.analysis = b.analysis)
    (agree : AgreeOn a b a.analysis.branches) : SameCoverage a b := by
  refine ⟨?_, ?_, agree.exempt_targets_eq same⟩
  · rw [canonicalCovered, canonicalCovered, ← same]
    exact agree.countCovered_eq
  · rw [functions, functions, ← same]
    apply List.map_congr_left
    intro function hf
    rw [ofFunction, ofFunction, (agree.of_function hf).countCovered_eq]

lemma SameCoverage.agreeOn (analyses : a.analysis = b.analysis) (same : SameCoverage a b) :
    AgreeOn a b a.analysis.branches := by
  intro branch hb canonical
  have missing := mem_listed_uncovered_iff hb canonical
  rw [same.targets, mem_listed_uncovered_iff (analyses ▸ hb) canonical] at missing
  rw [Bool.eq_iff_iff, ← Bool.not_eq_false, ← Bool.not_eq_false, missing]

lemma mem_canonicalHits_iff {branch : Branch} (hb : branch ∈ analysis.branches)
    (canonical : branch.isCanonical = true) :
    branch.id ∈ Run.canonicalHits analysis runs ↔
      (ofRuns analysis runs).isCovered branch = true := by
  rw [isCovered_ofRuns_iff, Run.mem_merge]
  exact and_iff_right ⟨branch, hb, Branch.Kind.isCanonical_iff.1 canonical, rfl⟩

/-- Runs agree on the canonical branches exactly if they hit the same of them. -/
lemma agreeOn_ofRuns_iff :
    AgreeOn (ofRuns analysis runs) (ofRuns analysis others) analysis.branches ↔
      Run.canonicalHits analysis runs = Run.canonicalHits analysis others := by
  constructor
  · intro agree
    ext id
    by_cases known : ∃ branch ∈ analysis.branches, branch.kind = .canonical ∧ branch.id = id
    · obtain ⟨branch, hb, kind, rfl⟩ := known
      have canonical := Branch.Kind.isCanonical_iff.2 kind
      rw [mem_canonicalHits_iff hb canonical, mem_canonicalHits_iff hb canonical,
        agree branch hb canonical]
    · exact iff_of_false (fun hit => known hit.1) fun hit => known hit.1
  · intro same branch hb canonical
    rw [Bool.eq_iff_iff, ← mem_canonicalHits_iff hb canonical, same,
      mem_canonicalHits_iff hb canonical]

/-- **Defects do not blend into coverage.**  Two lists of runs give the same number of covered
branches, the same table of functions and the same targets for uncovered branches, unhandled inputs
and unknown crashes exactly if they hit the same canonical branches of the analysis, whatever else
they hit, however often, under whatever names, and whatever they leave unmapped. -/
theorem sameCoverage_iff :
    SameCoverage (ofRuns analysis runs) (ofRuns analysis others) ↔
      Run.canonicalHits analysis runs = Run.canonicalHits analysis others := by
  rw [← agreeOn_ofRuns_iff]
  exact ⟨SameCoverage.agreeOn rfl, AgreeOn.sameCoverage rfl⟩

/-- Of two runs one hits a fallback and an identity that the analysis does not have, and the other
one hits an alternative that does not count and names the fallback without a count. -/
theorem sameCoverage_iff_fallback_hit :
    let id (name : String) (index : Nat) : Branch.Id := ⟨"Main", name, 0, index⟩
    let analysis : Analysis :=
      { functions := [
          { name := "Main.f"
            branches := [⟨id "f" 0, .canonical, "A"⟩, ⟨id "f" 1, .canonical, "B"⟩,
              ⟨id "f" 2, .unhandledInput, "_"⟩]
            hasFallback := true },
          { name := "Main.prim__g", branches := [⟨id "prim__g" 0, .compilerGenerated, "A"⟩],
            hasFallback := false }] }
    let unit : Run.Hits :=
      { run := "unit", hits := [⟨id "f" 0, 2⟩, ⟨id "f" 2, 7⟩, ⟨id "h" 0, 1⟩], unmapped := [] }
    let props : Run.Hits :=
      { run := "props", hits := [⟨id "f" 2, 0⟩, ⟨id "prim__g" 0, 3⟩, ⟨id "f" 0, 1⟩],
        unmapped := ["Main.h"] }
    Run.merge [unit] ≠ Run.merge [props] ∧
      SameCoverage (ofRuns analysis [unit]) (ofRuns analysis [props]) := by
  intro id analysis unit props
  have agree : ∀ branch ∈ analysis.branches, branch.isCanonical = true →
      (ofRuns analysis [unit]).isCovered branch = (ofRuns analysis [props]).isCovered branch := by
    decide +kernel
  refine ⟨?_, sameCoverage_iff.2 (agreeOn_ofRuns_iff.1 agree)⟩
  intro same
  have hit : id "f" 2 ∈ Run.merge [unit] := Run.mem_merge.2 ⟨unit, by simp, by decide⟩
  rw [same, Run.mem_merge] at hit
  revert hit
  decide

end Coverage

end BranchCoverage
