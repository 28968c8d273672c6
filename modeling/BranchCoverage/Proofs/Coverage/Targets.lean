import BranchCoverage.Coverage.Target
import Mathlib.Data.List.Basic
import Mathlib.Tactic.Common

/-!
# What the targets of one reason list

The targets of a function are made reason by reason, and a report reads them reason by reason.  Here
the two meet: of all targets of a function, those of one reason are the target that was made for
this reason, or none (`Target.filter_ofFunction`).  What they list together is the branches that the
reason concerns, in branch order (`Target.listed_ofFunction`, `Coverage.listed_targets`).

The targets for one of the reasons may be hidden.  Leaving them out, as `Target.exempt` does, takes
nothing from what is listed for the others (`Target.listed_exempt`).
-/

namespace BranchCoverage

open CaseTree

namespace Target

variable {coverage : Coverage} {function : Function} {reason : Reason}

/-- The branches that a reason concerns. -/
def concerned (coverage : Coverage) (reason : Reason) (branches : List Branch) : List Branch :=
  branches.filter (reason.concerns coverage)

/-- There is a target for a reason where the reason concerns some branch, and the target lists all
branches that it concerns. -/
lemma of?_eq_ite :
    of? coverage function reason =
      if concerned coverage reason function.branches = [] then none
      else some {
        function := function.name
        reason
        branches := (concerned coverage reason function.branches).map Branch.id } := by
  rw [of?, concerned]
  split
  · rename_i none
    rw [if_pos none]
  · rename_i some
    rw [if_neg some]

lemma reason_of_of?_eq_some {target : Target} (h : of? coverage function reason = some target) :
    target.reason = reason := by
  rw [of?_eq_ite] at h
  split at h
  · cases h
  · obtain rfl := Option.some.inj h
    rfl

lemma mem_ofFunction_iff {target : Target} :
    target ∈ ofFunction coverage function ↔
      of? coverage function target.reason = some target := by
  rw [ofFunction, List.mem_filterMap]
  constructor
  · rintro ⟨made, -, h⟩
    rwa [reason_of_of?_eq_some h]
  · intro h
    have listed : target.reason ∈ Reason.all := by cases target.reason <;> decide
    exact ⟨target.reason, listed, h⟩

/-- A function has a target for a reason exactly when the reason concerns some branch of it. -/
lemma exists_mem_ofFunction_iff :
    (∃ target ∈ ofFunction coverage function, target.reason = reason) ↔
      concerned coverage reason function.branches ≠ [] := by
  constructor
  · rintro ⟨target, htarget, rfl⟩
    rw [mem_ofFunction_iff, of?_eq_ite] at htarget
    intro none
    rw [if_pos none] at htarget
    cases htarget
  · intro nonempty
    obtain ⟨target, made⟩ : ∃ target, of? coverage function reason = some target :=
      ⟨_, of?_eq_ite.trans (if_neg nonempty)⟩
    have own := reason_of_of?_eq_some made
    refine ⟨target, mem_ofFunction_iff.2 ?_, own⟩
    rw [own, made]

/-- A target lists the branches of its function that its reason concerns. -/
lemma branches_of_mem_ofFunction {target : Target} (h : target ∈ ofFunction coverage function) :
    target.branches =
      (concerned coverage target.reason function.branches).map Branch.id := by
  rw [mem_ofFunction_iff, of?_eq_ite] at h
  split at h
  · cases h
  · exact congrArg Target.branches (Option.some.inj h).symm

/-- Of the targets of a function, those for a reason are the one that was made for it. -/
lemma filter_ofFunction :
    (ofFunction coverage function).filter (fun target => target.reason = reason) =
      (of? coverage function reason).toList := by
  have kept : ∀ made : Reason,
      (of? coverage function made).filter (fun target => target.reason = reason) =
        if made = reason then of? coverage function made else none := by
    intro made
    cases found : of? coverage function made with
    | none => simp
    | some target =>
      have own := reason_of_of?_eq_some found
      by_cases same : made = reason
      · simp [own, same]
      · simp [own, same]
  rw [ofFunction, List.filter_filterMap]
  simp only [kept]
  cases reason with
  | uncovered => cases found : of? coverage function .uncovered <;> simp [Reason.all, found]
  | unhandledInput =>
    cases found : of? coverage function .unhandledInput <;> simp [Reason.all, found]
  | unknownCrash => cases found : of? coverage function .unknownCrash <;> simp [Reason.all, found]
  | compilerGenerated =>
    cases found : of? coverage function .compilerGenerated <;> simp [Reason.all, found]

/-- The branches that targets list for a reason, one target after the other. -/
def listed (reason : Reason) (targets : List Target) : List Branch.Id :=
  (targets.filter fun target => target.reason = reason).flatMap Target.branches

lemma listed_append (reason : Reason) (targets others : List Target) :
    listed reason (targets ++ others) = listed reason targets ++ listed reason others := by
  rw [listed, List.filter_append, List.flatMap_append]
  rfl

/-- The targets of a function list for a reason the branches that it concerns. -/
theorem listed_ofFunction :
    listed reason (ofFunction coverage function) =
      (concerned coverage reason function.branches).map Branch.id := by
  rw [listed, filter_ofFunction, of?_eq_ite]
  split
  · rename_i none
    simp [none]
  · simp

/-- The targets for any reason but that the compiler made the function up.  No exclusion hides
them. -/
def exempt (targets : List Target) : List Target :=
  targets.filter fun target => target.reason ≠ .compilerGenerated

/-- What the exempt targets list for their reasons is what all targets do. -/
lemma listed_exempt (h : reason ≠ .compilerGenerated) (targets : List Target) :
    listed reason (exempt targets) = listed reason targets := by
  rw [listed, listed, exempt, List.filter_filter]
  congr 1
  apply List.filter_congr
  intro target _
  by_cases own : target.reason = reason
  · simp [own, h]
  · simp [own]

end Target

namespace Coverage

/-- The targets of each function, in dump order. -/
def targetsByFunction (coverage : Coverage) : List (List Target) :=
  coverage.analysis.functions.map (Target.ofFunction coverage)

lemma flatten_targetsByFunction (coverage : Coverage) :
    coverage.targetsByFunction.flatten = coverage.targets :=
  List.flatMap_def.symm

/-- All targets together list for a reason the branches that it concerns. -/
theorem listed_targets (coverage : Coverage) (reason : Reason) :
    Target.listed reason coverage.targets =
      (Target.concerned coverage reason coverage.analysis.branches).map Branch.id := by
  rw [targets, Analysis.branches]
  induction coverage.analysis.functions with
  | nil => rfl
  | cons function functions ih =>
    rw [List.flatMap_cons, Target.listed_append, ih, Target.listed_ofFunction, List.flatMap_cons,
      Target.concerned, Target.concerned, Target.concerned, List.filter_append, List.map_append]

end Coverage

end BranchCoverage
