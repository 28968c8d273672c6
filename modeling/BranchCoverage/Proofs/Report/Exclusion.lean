import BranchCoverage.CommandLine.Command
import BranchCoverage.Proofs.Coverage.Targets
import Mathlib.Tactic.Common

/-!
# What exclusions can change

An exclusion hides targets, and nothing else.  Two reports of one coverage agree in every count, in
the rate and in the table of functions, whatever patterns they were made with, and they list the
same targets but for those of functions that the compiler made up (`reportOf_exclusions`).  On the
command line this begins earlier: a request measures the same coverage, logs the same and fails in
the same way with any exclusions (`measure_exclude`).

A pattern takes part in one question only, whether it matches the function of a target that may be
hidden (`Target.isHidden_iff`).  So patterns act as a set: one list behind another hides what the
two together hide, and neither order nor repetition matters (`Target.visible_visible`,
`Target.visible_congr`).
-/

namespace BranchCoverage

/-! ## Patterns as a set -/

namespace Target

variable {patterns others : List Pattern} {target : Target}

lemma isHidden_iff :
    target.isHidden patterns = true ↔
      target.reason = .compilerGenerated ∧
        ∃ pattern ∈ patterns, pattern.matchesFunction target.function = true := by
  unfold isHidden
  rw [Bool.and_eq_true, beq_iff_eq, List.any_eq_true]

lemma mem_visible_iff {targets : List Target} :
    target ∈ visible patterns targets ↔
      target ∈ targets ∧ ¬ (target.reason = .compilerGenerated ∧
        ∃ pattern ∈ patterns, pattern.matchesFunction target.function = true) := by
  unfold visible
  rw [List.mem_filter, Bool.not_eq_true', ← Bool.not_eq_true, isHidden_iff]

lemma isHidden_append (patterns further : List Pattern) (target : Target) :
    target.isHidden (patterns ++ further) =
      (target.isHidden patterns || target.isHidden further) := by
  unfold isHidden
  rw [List.any_append, Bool.and_or_distrib_left]

lemma isHidden_congr (same : ∀ pattern, pattern ∈ others ↔ pattern ∈ patterns) (target : Target) :
    target.isHidden others = target.isHidden patterns := by
  rw [Bool.eq_iff_iff, isHidden_iff, isHidden_iff]
  simp only [same]

lemma visible_sublist (patterns : List Pattern) (targets : List Target) :
    (visible patterns targets).Sublist targets :=
  List.filter_sublist

/-- Hiding twice is hiding what either list of patterns hides. -/
lemma visible_visible (patterns further : List Pattern) (targets : List Target) :
    visible further (visible patterns targets) = visible (patterns ++ further) targets := by
  unfold visible
  rw [List.filter_filter]
  apply List.filter_congr
  intro target _
  rw [isHidden_append, Bool.not_or, Bool.and_comm]

/-- Neither the order of the patterns nor a repetition among them matters. -/
lemma visible_congr (same : ∀ pattern, pattern ∈ others ↔ pattern ∈ patterns)
    (targets : List Target) : visible others targets = visible patterns targets := by
  unfold visible
  simp only [isHidden_congr same]

/-- The exempt targets are all left, in their order. -/
lemma exempt_visible (patterns : List Pattern) (targets : List Target) :
    exempt (visible patterns targets) = exempt targets := by
  unfold exempt visible
  rw [List.filter_filter]
  apply List.filter_congr
  intro target _
  by_cases generated : target.reason = .compilerGenerated
  · simp [generated]
  · have shown : target.isHidden patterns = false := by
      rw [← Bool.not_eq_true, isHidden_iff]
      exact fun hidden => generated hidden.1
    simp [generated, shown]

end Target

/-! ## Reports -/

namespace CommandLine

/-- Exclusions on the command line change nothing about what is measured, nor about what is logged
on the way or reported as a failure. -/
lemma measure_exclude (disk : Disk) (request : ReportRequest) (exclude : List String) :
    Prod.fst <$> { request with exclude }.measure disk = Prod.fst <$> request.measure disk := by
  unfold ReportRequest.measure ReportRequest.loadConfig
  by_cases none : request.runs.isEmpty = true
  · simp only [none, if_true]
  · -- the patterns go into the configuration, of which only the scheme is used
    simp only [none, Bool.false_eq_true, if_false, map_bind, map_pure]
    cases request.config <;> simp only [Config.override, bind_assoc, pure_bind]

/-- **Exclusions cannot influence coverage.**  Two reports of one coverage, made at any times and
with any configurations, are the same report but for the time and the targets, and list the same
exempt targets in the same order; and the exclusions of a request have no part in what it measures.
Of any targets, patterns leave a part in its order, with every exempt target and every target that
no pattern matches; one list of patterns behind another leaves what the two together leave; and
lists with the same patterns leave the same. -/
theorem reportOf_exclusions (coverage : Coverage) (config other : Config)
    (generatedAt later : String) :
    (reportOf later coverage other =
      { reportOf generatedAt coverage config with
        generatedAt := later
        targets := (reportOf later coverage other).targets }) ∧
    Target.exempt (reportOf later coverage other).targets =
      Target.exempt (reportOf generatedAt coverage config).targets ∧
    (∀ (disk : Disk) (request : ReportRequest) (exclude : List String),
      Prod.fst <$> { request with exclude }.measure disk = Prod.fst <$> request.measure disk) ∧
    ∀ (targets : List Target) (patterns : List Pattern),
      (Target.visible patterns targets).Sublist targets ∧
      Target.exempt (Target.visible patterns targets) = Target.exempt targets ∧
      (∀ target, target ∈ Target.visible patterns targets ↔
        target ∈ targets ∧ ¬ (target.reason = .compilerGenerated ∧
          ∃ pattern ∈ patterns, pattern.matchesFunction target.function = true)) ∧
      (∀ further, Target.visible further (Target.visible patterns targets) =
        Target.visible (patterns ++ further) targets) ∧
      ∀ others, (∀ pattern, pattern ∈ others ↔ pattern ∈ patterns) →
        Target.visible others targets = Target.visible patterns targets := by
  have exempt : ∀ (time : String) (chosen : Config),
      Target.exempt (reportOf time coverage chosen).targets = Target.exempt coverage.targets :=
    fun _ chosen => Target.exempt_visible chosen.exclusions coverage.targets
  refine ⟨rfl, (exempt later other).trans (exempt generatedAt config).symm, measure_exclude, ?_⟩
  intro targets patterns
  exact ⟨Target.visible_sublist patterns targets, Target.exempt_visible patterns targets,
    fun _ => Target.mem_visible_iff, fun further => Target.visible_visible patterns further targets,
    fun _ same => Target.visible_congr same targets⟩

/-- One pattern, in another order and twice: it hides a function of the builtin module, and has no
effect on a user's function of the same name. -/
theorem reportOf_exclusions_same_name :
    let users : Target := ⟨"Main.f", .uncovered, [⟨"Main", "f", 0, 1⟩]⟩
    let builtin : Target := ⟨"_builtin.f", .compilerGenerated, [⟨"_builtin", "f", 0, 0⟩]⟩
    let patterns : List Pattern := [.exact "f", .beginning "prim__"]
    let others : List Pattern := [.beginning "prim__", .exact "f", .exact "f"]
    (∀ pattern, pattern ∈ others ↔ pattern ∈ patterns) ∧
      Target.visible others [users, builtin] = [users] := by
  intro users builtin patterns others
  have same : ∀ pattern, pattern ∈ others ↔ pattern ∈ patterns := by
    intro pattern
    simp only [others, patterns, List.mem_cons, List.not_mem_nil, or_false]
    tauto
  obtain ⟨-, -, -, laws⟩ := reportOf_exclusions (.ofRuns ⟨[]⟩ []) {} {} "" ""
  obtain ⟨-, -, -, -, asSet⟩ := laws [users, builtin] patterns
  refine ⟨same, ?_⟩
  rw [asSet others same]
  decide +kernel

end CommandLine

end BranchCoverage
