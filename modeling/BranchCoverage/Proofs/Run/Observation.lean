import BranchCoverage.Proofs.Attribution.Share
import BranchCoverage.Proofs.Profile.Grouping
import Mathlib.Data.List.Flatten
import Mathlib.Data.List.Forall2

/-!
# Two profiles of the same program

A run reads the markers of its profile in one way only, through the table of lines.  So two profiles
with the same definitions contribute the same wherever their markers hold the same observations
(`Run.Hits.collect_eq_of_perm`): no column, no exact count and no order of the annotated source can
change a hit, an unmapped function or a log record.

Where the second of two profiles has the same expressions and ran at least those that ran in the
first one, it hits at least the same branches (`Run.Hits.ids_sublist_of_runsAlso`).  Every step from
the markers to the hits respects this order.  The markers on a group of lines are compared one by
one (`LineStats.runsAlso_ofList`), so each definition has the same total and no smaller part that
ran; the share of the branches is rounded down from a quotient that has not become smaller
(`Attribution.branchesRun_mono`); and the branches are taken from the front, so more of them are the
same ones and others behind them.
-/

namespace BranchCoverage

open CaseTree RuntimeName

/-! ## The same observations -/

namespace Run.Hits

/-- The tally of a profile is for the log of the profile, and contributes nothing. -/
lemma collect_tally (analysis : Analysis) (run : String) (lines : LineTable)
    (definitions : List Definition) (tally tally' : Tally) (scheme : Scheme) :
    collect analysis run { lines, definitions, tally } scheme =
      collect analysis run { lines, definitions, tally := tally' } scheme := rfl

/-- Profiles with the same definitions and the same observations contribute the same. -/
theorem collect_eq_of_perm {markers markers' : List Marker}
    (h : (markers.map Marker.observation).Perm (markers'.map Marker.observation))
    (analysis : Analysis) (run : String) (definitions : List Definition) (tally tally' : Tally)
    (scheme : Scheme) :
    collect analysis run { lines := .ofMarkers markers, definitions, tally } scheme =
      collect analysis run { lines := .ofMarkers markers', definitions, tally := tally' }
        scheme := by
  rw [LineTable.ofMarkers_eq_iff.2 h]
  exact collect_tally analysis run _ definitions tally tally' scheme

/-- **Only where and whether an expression ran matters.**  Markers with the same observations, each
as often, give one table, and whatever the analysis, the scheme and the definitions, a run
contributes the same for both.  The tables of two sources are added line by line, and each table
accounts for its markers. -/
theorem observations_determine (markers markers' : List Marker) :
    ((markers.map Marker.observation).Perm (markers'.map Marker.observation) →
      LineTable.ofMarkers markers = LineTable.ofMarkers markers' ∧
      ∀ (analysis : Analysis) (run : String) (definitions : List Definition)
        (tally tally' : Tally) (scheme : Scheme),
        collect analysis run { lines := .ofMarkers markers, definitions, tally } scheme =
          collect analysis run
            { lines := .ofMarkers markers', definitions, tally := tally' } scheme) ∧
    (∀ line, (LineTable.ofMarkers (markers ++ markers')).stats? line =
      Option.merge .add ((LineTable.ofMarkers markers).stats? line)
        ((LineTable.ofMarkers markers').stats? line)) ∧
    (LineTable.ofMarkers markers).AccountsFor markers := by
  refine ⟨fun same => ⟨LineTable.ofMarkers_eq_iff.2 same, ?_⟩, ?_, ?_⟩
  · exact collect_eq_of_perm same
  · exact LineTable.stats?_ofMarkers_append markers markers'
  · exact LineTable.accountsFor_ofMarkers markers

/-- Three markers, and the same observations in another order, with other columns and counts.  The
markers of the second line are the function's, and one of them ran. -/
theorem observations_determine_three_markers :
    let markers : List Marker := [⟨3, 1, 2⟩, ⟨1, 4, 0⟩, ⟨3, 5, 0⟩]
    let markers' : List Marker := [⟨3, 9, 0⟩, ⟨3, 2, 7⟩, ⟨1, 1, 0⟩]
    let function := Function.ofBody "Main.f" " [] (%concase A (%concase B 0))".toList
    let analysis : Analysis := { functions := [function] }
    let definitions : List Definition := [{ runtimeName := "MainC-46f", line := 2 }]
    let first : Profile := { lines := .ofMarkers markers, definitions, tally := ⟨3, 0⟩ }
    let second : Profile := { lines := .ofMarkers markers', definitions, tally := ⟨3, 2⟩ }
    first.lines = second.lines ∧
      collect analysis "unit" first .uniform = collect analysis "unit" second .uniform ∧
      (ofProfile analysis "unit" first .uniform).hits.map Hit.count = [1] ∧
      first.lines.rows = [⟨1, ⟨0, 1⟩⟩, ⟨3, ⟨1, 2⟩⟩] ∧ first.lines.AccountsFor markers := by
  intro markers markers' function analysis definitions first second
  obtain ⟨same, -, accounts⟩ := observations_determine markers markers'
  obtain ⟨lines, run⟩ := same (by decide)
  exact ⟨lines, run analysis "unit" definitions ⟨3, 0⟩ ⟨3, 2⟩ .uniform, by decide +kernel, rfl,
    accounts⟩

end Run.Hits

/-! ## Executing more -/

/-- The same expression in a second profile, in which it ran if it ran in the first one. -/
structure Marker.RunsAlso (marker marker' : Marker) : Prop where
  line : marker.line = marker'.line
  ran : 0 < marker.count → 0 < marker'.count

/-- Two groups of as many expressions, of which no fewer ran in the second one. -/
structure LineStats.RunsAlso (stats stats' : LineStats) : Prop where
  total : stats.total = stats'.total
  executed : stats.executed ≤ stats'.executed

lemma LineStats.runsAlso_ofList {markers markers' : List Marker}
    (h : List.Forall₂ Marker.RunsAlso markers markers') :
    (ofList markers).RunsAlso (ofList markers') := by
  refine ⟨h.length_eq, ?_⟩
  induction h with
  | nil => exact Nat.le_refl _
  | @cons marker marker' markers markers' first others ih =>
    have ran : marker.isExecuted = true → marker'.isExecuted = true := by
      simpa [Marker.isExecuted] using first.ran
    simp only [ofList, List.countP_cons] at ih ⊢
    cases now : marker.isExecuted
    · simp
      omega
    · simp [ran now]
      omega

/-- The relation holds on every group of lines. -/
lemma LineTable.runsAlso_sumOver {markers markers' : List Marker}
    (h : List.Forall₂ Marker.RunsAlso markers markers') (wanted : Nat → Bool) :
    ((ofMarkers markers).sumOver wanted).RunsAlso ((ofMarkers markers').sumOver wanted) := by
  rw [sumOver_ofMarkers, sumOver_ofMarkers]
  apply LineStats.runsAlso_ofList
  refine List.rel_filter ?_ h
  intro marker marker' same
  exact iff_of_eq (congrArg (fun line => wanted line = true) same.line)

/-- A larger part of the same whole is no smaller when it is rounded down. -/
lemma Attribution.branchesRun_mono {attribution attribution' : Attribution}
    (h : attribution.stats.RunsAlso attribution'.stats) (canonical : Nat) :
    attribution.branchesRun canonical ≤ attribution'.branchesRun canonical := by
  rw [branchesRun, branchesRun, h.total]
  exact Nat.div_le_div_right (Nat.mul_le_mul_left canonical h.executed)

namespace Run.Hits

lemma ids_ofAttribution (function : Function) (attribution : Attribution) :
    (ofAttribution function attribution).map Hit.id =
      (function.canonicalBranches.take (attribution.branchesRun function.canonicalCount)).map
        Branch.id := by
  rw [ofAttribution, List.map_map]
  rfl

/-- More of a function hits the same branches of it, and others behind them. -/
lemma ids_ofAttribution_sublist {attribution attribution' : Attribution}
    (h : attribution.stats.RunsAlso attribution'.stats) (function : Function) :
    ((ofAttribution function attribution).map Hit.id).Sublist
      ((ofAttribution function attribution').map Hit.id) := by
  rw [ids_ofAttribution, ids_ofAttribution]
  have more := Attribution.branchesRun_mono h function.canonicalCount
  exact (List.take_prefix_take_left more).sublist.map Branch.id

/-- The unmapped functions are those without a definition, whatever ran. -/
lemma unmapped_ofProfile (analysis : Analysis) (run : String) (profile : Profile)
    (scheme : Scheme) :
    (ofProfile analysis run profile scheme).unmapped = analysis.functions.filterMap fun function =>
      if (Attribution.definition? scheme profile.definitions function).isNone then
        some function.name else none := by
  have written : (ofProfile analysis run profile scheme).unmapped =
      (analysis.functions.map fun function =>
        (function, Attribution.of? profile scheme function)).filterMap fun attributed =>
          if attributed.2.isNone then some attributed.1.name else none := rfl
  rw [written, List.filterMap_map]
  congr 1
  funext function
  rw [Function.comp, Attribution.of?_eq_map]
  simp only [Option.isNone_map]

/-- **Executing more never uncovers a branch.**  What the first of two such profiles hits, the
second one hits too, function by function in the same order, and both leave the same functions
unmapped. -/
theorem ids_sublist_of_runsAlso {markers markers' : List Marker}
    (h : List.Forall₂ Marker.RunsAlso markers markers') (analysis : Analysis) (run : String)
    (definitions : List Definition) (tally tally' : Tally) (scheme : Scheme) :
    let first := ofProfile analysis run { lines := .ofMarkers markers, definitions, tally } scheme
    let second := ofProfile analysis run
      { lines := .ofMarkers markers', definitions, tally := tally' } scheme
    (first.hits.map Hit.id).Sublist (second.hits.map Hit.id) ∧
      first.unmapped = second.unmapped := by
  intro first second
  constructor
  · simp only [first, second, hits_ofProfile, List.map_flatMap]
    apply List.Sublist.flatMap_right
    intro function _
    rw [Attribution.of?_eq_map, Attribution.of?_eq_map]
    cases Attribution.definition? scheme definitions function with
    | none => exact List.Sublist.refl _
    | some definition =>
      apply ids_ofAttribution_sublist
      exact LineTable.runsAlso_sumOver h _
  · simp only [first, second, unmapped_ofProfile]

/-- A function of three branches, in which one of two expressions ran, and then both. -/
theorem ids_sublist_of_runsAlso_three_branches :
    let markers : List Marker := [⟨2, 1, 5⟩, ⟨3, 1, 0⟩]
    let markers' : List Marker := [⟨2, 8, 1⟩, ⟨3, 1, 4⟩]
    let body := " [] (%concase A (%concase B (%concase C 0)))".toList
    let analysis : Analysis :=
      { functions := [Function.ofBody "Main.f" body, Function.ofBody "Main.g" body] }
    let definitions : List Definition := [{ runtimeName := "MainC-46f", line := 2 }]
    let first := ofProfile analysis "unit"
      { lines := .ofMarkers markers, definitions, tally := ⟨2, 0⟩ } .uniform
    let second := ofProfile analysis "unit"
      { lines := .ofMarkers markers', definitions, tally := ⟨2, 0⟩ } .uniform
    (first.hits.map Hit.id).Sublist (second.hits.map Hit.id) ∧
      first.unmapped = second.unmapped ∧ first.unmapped = ["Main.g"] ∧
      first.hits.length = 1 ∧ second.hits.length = 3 := by
  intro markers markers' body analysis definitions first second
  have related : List.Forall₂ Marker.RunsAlso markers markers' := by
    refine .cons ⟨rfl, ?_⟩ (.cons ⟨rfl, ?_⟩ .nil)
    · decide
    · decide
  obtain ⟨ids, unmapped⟩ :=
    ids_sublist_of_runsAlso related analysis "unit" definitions ⟨2, 0⟩ ⟨2, 0⟩ .uniform
  exact ⟨ids, unmapped, by decide +kernel, by decide +kernel, by decide +kernel⟩

end Run.Hits

end BranchCoverage
