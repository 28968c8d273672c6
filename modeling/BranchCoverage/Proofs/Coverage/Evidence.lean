import BranchCoverage.Proofs.Coverage.Share
import BranchCoverage.Proofs.Profile.Titles

/-!
# What a covered branch is evidence of

A branch is never covered by default, by rounding, or by its place in a list: a covered identity
goes back to a marker that ran (`mem_covered_evidence`).  The way back takes one step for each step
of the computation, and each of them is an equivalence or loses only what is not asked for.

* The merge of the runs comes from hits, and hits from branches that a run is taken to have executed
  (`Coverage.mem_merge_contributions`).
* A run is taken to have executed a branch only if some marker of the function's definition ran
  (`Run.Artifacts.exists_evidence`).
* The definition of a function ends in its runtime name (`Attribution.definition?_eq_some`).
* A marker of the scan is written in the annotated source (`Marker.writtenIn_of_mem_scan`).

Nothing is asked of the dump here.  Where several functions have branches of one identity, the
evidence is for one of them.
-/

namespace BranchCoverage

open CaseTree RuntimeName

/-- The definition that a function is attributed to is one of the definitions, and its runtime name
ends in that of the function. -/
theorem Attribution.definition?_eq_some {scheme : Scheme} {definitions : List Definition}
    {function : Function} {definition : Definition}
    (h : definition? scheme definitions function = some definition) :
    definition ∈ definitions ∧
      (scheme.runtimeName function.name).toList <:+ definition.runtimeName.toList := by
  obtain ⟨place, found, here⟩ := Option.bind_eq_some_iff.1 h
  refine ⟨List.mem_of_getElem? here, ?_⟩
  rcases runtimeName_of_find? found here with same | ⟨-, ends⟩
  · exact same ▸ List.suffix_refl _
  · exact ends

namespace Run.Artifacts

variable {artifacts : Artifacts} {scheme : Scheme} {function : Function}

/-- A run that executes an expression of a function has a marker that ran, owned by the definition
of the function. -/
lemma exists_owned_of_expressionsRun_pos (h : 0 < artifacts.expressionsRun scheme function) :
    ∃ definition,
      Attribution.definition? scheme (Definition.scan artifacts.definitions) function =
        some definition ∧
      ∃ marker ∈ artifacts.owned definition, marker.isExecuted = true := by
  rw [expressionsRun] at h
  cases found : Attribution.definition? scheme (Definition.scan artifacts.definitions) function with
  | none => simp [found] at h
  | some definition =>
    rw [found] at h
    exact ⟨definition, rfl, List.countP_pos_iff.1 h⟩

/-- A definition and a marker of a run are evidence that a function ran: the runtime name of the
definition ends in that of the function, and the marker is written in the annotations, ran at least
once, and stands on a line of the definition: not above it, and above every definition on a larger
line. -/
structure Evidence (run : Artifacts) (scheme : Scheme) (function : Function)
    (definition : Definition) (marker : Marker) : Prop where
  definition_mem : definition ∈ Definition.scan run.definitions
  ends : (scheme.runtimeName function.name).toList <:+ definition.runtimeName.toList
  marker_mem : marker ∈ (Marker.scan run.annotated).1
  written : marker.WrittenIn run.annotated.toList
  ran : 0 < marker.count
  owns : definition.Owns (Definition.scan run.definitions) marker

/-- There is evidence for every function of which a run is taken to have executed a branch. -/
theorem exists_evidence (h : 0 < artifacts.branchesRun scheme function) :
    ∃ definition marker, artifacts.Evidence scheme function definition marker := by
  obtain ⟨definition, found, marker, howned, ran⟩ :=
    exists_owned_of_expressionsRun_pos (expressionsRun_pos h)
  obtain ⟨hdefinition, ends⟩ := Attribution.definition?_eq_some found
  obtain ⟨hmarker, owns⟩ := List.mem_filter.1 howned
  exact ⟨definition, marker, {
    definition_mem := hdefinition
    ends
    marker_mem := hmarker
    written := Marker.writtenIn_of_mem_scan hmarker
    ran := of_decide_eq_true ran
    owns := of_decide_eq_true owns }⟩

end Run.Artifacts

namespace Coverage

/-- **Nothing is covered without evidence.**  For a covered identity there are a run, a function of
the dump with a canonical branch of that identity, and a definition and a marker of the run that are
evidence for the function. -/
theorem mem_covered_evidence {text : String} {analysis : Analysis} {scheme : Scheme}
    {runs : List Run.Artifacts} {coverage : Coverage} {id : Branch.Id}
    (hdump : (Analysis.ofDump text).result = .ok analysis)
    (hruns : (ofArtifacts analysis scheme runs).result = .ok coverage)
    (hid : id ∈ coverage.covered) :
    ∃ run ∈ runs, ∃ function ∈ (readDump text).1,
      (∃ branch ∈ function.branches, branch.kind = .canonical ∧ branch.id = id) ∧
        ∃ definition marker, run.Evidence scheme function definition marker := by
  obtain ⟨-, rfl⟩ := Analysis.result_ofDump_eq_ok_iff.1 hdump
  obtain ⟨-, rfl⟩ := result_ofArtifacts_eq_ok_iff.1 hruns
  obtain ⟨run, hrun, function, hfunction, branch, hbranch, same⟩ := mem_merge_contributions.1 hid
  obtain ⟨listed, canonical⟩ := List.mem_filter.1 (List.mem_of_mem_take hbranch)
  have executed := Run.Artifacts.branchesRun_pos_of_mem_take hbranch
  have kind : branch.kind = .canonical := Branch.Kind.isCanonical_iff.1 canonical
  exact ⟨run, hrun, function, hfunction, ⟨branch, listed, kind, same⟩,
    Run.Artifacts.exists_evidence executed⟩

/-- Of two functions of one name, the run is taken to have executed a branch of the second only, and
there is evidence for it. -/
theorem mem_covered_evidence_same_name :
    let text := "Main.f = [] (%concase A 0)\nMain.f = [] (%concase B 0) (%concase C 1)"
    let run : Run.Artifacts := ⟨"unit",
      "title=\"line 2 char 1 count 0\" title=\"line 3 char 1 count 8\" title=\"line 4 count 5\"",
      "; head\n(define ns-MainC-46f 0)\n  (define inner 0)\n(define last 0)"⟩
    ∃ analysis coverage, (Analysis.ofDump text).result = .ok analysis ∧
      (ofArtifacts analysis .uniform [run]).result = .ok coverage ∧
      ⟨"Main", "f", 0, 0⟩ ∈ coverage.covered ∧
      ∃ function ∈ (readDump text).1, ∃ definition marker,
        run.Evidence .uniform function definition marker := by
  intro text run
  have dump : (Analysis.ofDump text).result = .ok { functions := (readDump text).1 } :=
    Analysis.result_ofDump_eq_ok_iff.2 ⟨by decide +kernel, rfl⟩
  have usable : ∀ run' ∈ [run],
      Profile.blankArtifact? run'.annotated run'.definitions = none := by decide +kernel
  have runs : (ofArtifacts { functions := (readDump text).1 } .uniform [run]).result = .ok _ :=
    result_ofArtifacts_eq_ok_iff.2 ⟨usable, rfl⟩
  have covered : (⟨"Main", "f", 0, 0⟩ : Branch.Id) ∈ Run.merge ([run].map fun run =>
      run.contribution { functions := (readDump text).1 } .uniform) := by decide +kernel
  obtain ⟨_, hrun, function, hfunction, -, evidence⟩ := mem_covered_evidence dump runs covered
  obtain rfl := List.mem_singleton.1 hrun
  exact ⟨_, _, dump, runs, covered, function, hfunction, evidence⟩

end Coverage

end BranchCoverage
