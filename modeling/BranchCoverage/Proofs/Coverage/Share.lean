import BranchCoverage.Coverage.Basic
import BranchCoverage.Proofs.Attribution.Share
import Mathlib.Data.List.Lattice
import Mathlib.Data.List.Nodup
import Mathlib.Data.List.Pairwise
import Mathlib.Data.List.Sort

/-!
# The covered branches of a function

Between the markers of a run and the coverage that is reported for a function stand the grouping by
line, the extent of a definition, a share, a choice of branches, the hits, and a union over all
runs.  The result is one formula (`functions_ofArtifacts`): as many branches of a function are
covered as the run with the largest share accounts for, and they are its first canonical branches.

The union comes out as a maximum because each run takes its branches from the front: of two lists of
first branches one is part of the other (`mem_take_foldr_max`).  Nothing else may add to it, so the
identities of an analysis have to tell its branches apart (`branch_unique`).
-/

namespace BranchCoverage

open CaseTree RuntimeName

/-! ## Branches and their identities -/

/-- The branches of an analysis have identities of their own. -/
def CaseTree.Analysis.Distinct (analysis : Analysis) : Prop :=
  (analysis.branches.map Branch.id).Nodup

instance (analysis : Analysis) : Decidable analysis.Distinct :=
  inferInstanceAs (Decidable (List.Nodup _))

section Distinct

variable {analysis : Analysis} {function : Function}

lemma nodup_functions (distinct : analysis.Distinct) :
    (∀ function ∈ analysis.functions, (function.branches.map Branch.id).Nodup) ∧
      analysis.functions.Pairwise fun f g =>
        List.Disjoint (f.branches.map Branch.id) (g.branches.map Branch.id) := by
  rw [Analysis.Distinct, Analysis.branches, List.map_flatMap, List.nodup_flatMap] at distinct
  exact distinct

lemma nodup_branches (distinct : analysis.Distinct) (hf : function ∈ analysis.functions) :
    function.branches.Nodup :=
  ((nodup_functions distinct).1 function hf).of_map

/-- A branch belongs to one function, and is known by its identity there. -/
lemma branch_unique (distinct : analysis.Distinct) {other : Function} {branch twin : Branch}
    (hf : function ∈ analysis.functions) (hg : other ∈ analysis.functions)
    (hb : branch ∈ function.branches) (ht : twin ∈ other.branches) (same : branch.id = twin.id) :
    function = other ∧ branch = twin := by
  obtain ⟨inside, apart⟩ := nodup_functions distinct
  have symmetric : Std.Symm fun f g : Function =>
      List.Disjoint (f.branches.map Branch.id) (g.branches.map Branch.id) :=
    ⟨fun _ _ h => List.Disjoint.symm h⟩
  have functions : function = other := by
    by_contra different
    have disjoint := List.Pairwise.forall apart hf hg different
    apply disjoint (List.mem_map_of_mem hb)
    rw [same]
    exact List.mem_map_of_mem ht
  subst functions
  exact ⟨rfl, List.inj_on_of_nodup_map (inside function hf) hb ht same⟩

lemma canonicalBranches_sublist (function : Function) :
    function.canonicalBranches.Sublist function.branches :=
  List.filter_sublist

end Distinct

/-! ## Branches taken from the front -/

/-- Taking as many as the largest number says is taking as many as any of the numbers says. -/
lemma mem_take_foldr_max {α : Type} {a : α} {items : List α} {numbers : List Nat} :
    a ∈ items.take (numbers.foldr max 0) ↔ ∃ n ∈ numbers, a ∈ items.take n := by
  induction numbers with
  | nil => simp
  | cons n numbers ih =>
    rw [List.foldr_cons, List.exists_mem_cons_iff, ← ih]
    rcases Nat.le_total n (numbers.foldr max 0) with h | h
    · rw [Nat.max_eq_right h]
      constructor
      · exact .inr
      · rintro (fewer | more)
        · exact List.take_subset_take_left items h fewer
        · exact more
    · rw [Nat.max_eq_left h]
      constructor
      · exact .inl
      · rintro (more | fewer)
        · exact more
        · exact List.take_subset_take_left items h fewer

lemma foldr_max_le {bound : Nat} {numbers : List Nat} (h : ∀ n ∈ numbers, n ≤ bound) :
    numbers.foldr max 0 ≤ bound := by
  induction numbers with
  | nil => exact Nat.zero_le _
  | cons n numbers ih =>
    obtain ⟨first, rest⟩ := List.forall_mem_cons.1 h
    exact Nat.max_le.2 ⟨first, ih rest⟩

/-! ## Measuring a list of runs -/

namespace Coverage

variable {analysis : Analysis} {scheme : Scheme} {runs : List Run.Artifacts} {coverage : Coverage}

/-- A list of runs can be measured when none of them has a blank artifact. -/
theorem result_ofArtifacts_eq_ok_iff :
    (ofArtifacts analysis scheme runs).result = .ok coverage ↔
      (∀ run ∈ runs, Profile.blankArtifact? run.annotated run.definitions = none) ∧
        coverage = ofRuns analysis (runs.map fun run => run.contribution analysis scheme) := by
  have contributions : ∀ (run : Run.Artifacts) (hits : Run.Hits),
      (run.hits analysis scheme).result = .ok hits ↔
        Profile.blankArtifact? run.annotated run.definitions = none ∧
          hits = run.contribution analysis scheme :=
    fun _ _ => Run.Artifacts.result_hits_eq_ok_iff
  rw [ofArtifacts, Outcome.result_bind_eq_ok_iff]
  simp only [Outcome.result_mapM_eq_ok_iff contributions, Outcome.result_pure, Except.ok.injEq]
  constructor
  · rintro ⟨_, ⟨usable, rfl⟩, rfl⟩
    exact ⟨usable, rfl⟩
  · rintro ⟨usable, rfl⟩
    exact ⟨_, ⟨usable, rfl⟩, rfl⟩

/-- The identities that runs cover are those of the first canonical branches of each function, as
many as some run is taken to have executed. -/
theorem mem_merge_contributions {id : Branch.Id} :
    id ∈ Run.merge (runs.map fun run => run.contribution analysis scheme) ↔
      ∃ run ∈ runs, ∃ function ∈ analysis.functions,
        ∃ branch ∈ function.canonicalBranches.take (run.branchesRun scheme function),
          branch.id = id := by
  rw [Run.mem_merge]
  constructor
  · rintro ⟨_, hmem, hhit⟩
    obtain ⟨run, hrun, rfl⟩ := List.mem_map.1 hmem
    exact ⟨run, hrun, Run.Artifacts.exists_hit_iff.1 hhit⟩
  · rintro ⟨run, hrun, hbranch⟩
    exact ⟨_, List.mem_map_of_mem hrun, Run.Artifacts.exists_hit_iff.2 hbranch⟩

/-- The most branches of a function that one of the runs is taken to have executed. -/
def mostRun (scheme : Scheme) (runs : List Run.Artifacts) (function : Function) : Nat :=
  (runs.map fun run => run.branchesRun scheme function).foldr max 0

lemma mostRun_le (scheme : Scheme) (runs : List Run.Artifacts) (function : Function) :
    mostRun scheme runs function ≤ function.canonicalCount := by
  apply foldr_max_le
  intro n hn
  obtain ⟨run, -, rfl⟩ := List.mem_map.1 hn
  exact run.branchesRun_le scheme function

/-- Where identities tell branches apart, a branch is covered by the runs of its own function and by
nothing else. -/
lemma isCovered_iff_mem_take (distinct : analysis.Distinct) {function : Function}
    (hf : function ∈ analysis.functions) {branch : Branch} (hb : branch ∈ function.branches) :
    (ofRuns analysis (runs.map fun run => run.contribution analysis scheme)).isCovered branch =
        true ↔
      branch ∈ function.canonicalBranches.take (mostRun scheme runs function) := by
  rw [isCovered_ofRuns_iff, mem_merge_contributions, mostRun, mem_take_foldr_max]
  constructor
  · rintro ⟨run, hrun, other, hg, twin, htwin, same⟩
    have hmem : twin ∈ other.branches :=
      (canonicalBranches_sublist other).subset (List.mem_of_mem_take htwin)
    obtain ⟨rfl, rfl⟩ := branch_unique distinct hf hg hb hmem same.symm
    exact ⟨_, List.mem_map_of_mem hrun, htwin⟩
  · rintro ⟨n, hn, htake⟩
    obtain ⟨run, hrun, rfl⟩ := List.mem_map.1 hn
    exact ⟨run, hrun, function, hf, branch, htake, rfl⟩

/-- The covered branches of a function are its first canonical branches. -/
lemma filter_isCovered (distinct : analysis.Distinct) {function : Function}
    (hf : function ∈ analysis.functions) :
    function.branches.filter
        (ofRuns analysis (runs.map fun run => run.contribution analysis scheme)).isCovered =
      function.canonicalBranches.take (mostRun scheme runs function) := by
  have nodup := nodup_branches distinct hf
  have front : (function.canonicalBranches.take (mostRun scheme runs function)).Sublist
      function.branches :=
    (List.take_sublist _ _).trans (canonicalBranches_sublist function)
  apply (List.Nodup.perm_iff_eq_of_sublist nodup List.filter_sublist front).1
  rw [List.perm_ext_iff_of_nodup (nodup.filter _) (nodup.sublist front)]
  intro branch
  rw [List.mem_filter]
  constructor
  · rintro ⟨hb, hcovered⟩
    exact (isCovered_iff_mem_take distinct hf hb).1 hcovered
  · intro hmem
    have hb := front.subset hmem
    exact ⟨hb, (isCovered_iff_mem_take distinct hf hb).2 hmem⟩

/-- Only canonical branches are covered, so counting the covered canonical branches counts all that
are covered. -/
lemma countCovered_eq (distinct : analysis.Distinct) {function : Function}
    (hf : function ∈ analysis.functions) :
    (ofRuns analysis (runs.map fun run => run.contribution analysis scheme)).countCovered
        function.branches =
      mostRun scheme runs function := by
  rw [countCovered, ← List.countP_filter, filter_isCovered distinct hf]
  have canonical : ∀ branch ∈ function.canonicalBranches.take (mostRun scheme runs function),
      branch.isCanonical = true := by
    intro branch hmem
    exact (List.mem_filter.1 (List.mem_of_mem_take hmem)).2
  rw [List.countP_eq_length.2 canonical, List.length_take]
  exact Nat.min_eq_left (mostRun_le scheme runs function)

/-- **Coverage is the largest share.**  Of each function as many branches are covered as the run
with the largest share accounts for, and the covered branches are its first canonical ones. -/
theorem functions_ofArtifacts (distinct : analysis.Distinct)
    (h : (ofArtifacts analysis scheme runs).result = .ok coverage) :
    coverage.functions = analysis.functions.map (fun function =>
      { name := function.name
        total := function.canonicalCount
        covered := mostRun scheme runs function }) ∧
    ∀ function ∈ analysis.functions,
      function.branches.filter coverage.isCovered =
        function.canonicalBranches.take (mostRun scheme runs function) := by
  obtain ⟨-, rfl⟩ := result_ofArtifacts_eq_ok_iff.1 h
  refine ⟨?_, fun function hf => filter_isCovered distinct hf⟩
  apply List.map_congr_left
  intro function hf
  rw [ofFunction, countCovered_eq distinct hf]

/-- Of three branches, one run accounts for one and another for two. -/
theorem functions_ofArtifacts_two_of_three :
    ∃ analysis coverage,
      (Analysis.ofDump "Main.f = [] (%concase A 0) (%constcase 7 1) (%concase B 2)").result =
        .ok analysis ∧
      (ofArtifacts analysis .uniform
        [⟨"unit", "title=\"line 1 char 1 count 3\" title=\"line 2 char 1 count 0\"",
            "(define MainC-46f\n"⟩,
          ⟨"props", "title=\"line 3 char 1 count 1\" title=\"line 3 char 5 count 0\"
              title=\"line 9 char 1 count 6\"", "\n(define MainC-46f\n"⟩]).result =
        .ok coverage ∧
      coverage.functions = [{ name := "Main.f", total := 3, covered := 2 }] := by
  refine ⟨_, _, rfl, result_ofArtifacts_eq_ok_iff.2 ⟨?_, rfl⟩, ?_⟩
  · decide +kernel
  · rw [(functions_ofArtifacts ?distinct (result_ofArtifacts_eq_ok_iff.2 ⟨?usable, rfl⟩)).1]
    · decide +kernel
    case distinct => decide +kernel
    case usable => decide +kernel

end Coverage

end BranchCoverage
