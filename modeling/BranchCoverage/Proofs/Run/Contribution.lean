import BranchCoverage.Coverage.Basic
import BranchCoverage.Proofs.CaseTree.Identity
import BranchCoverage.Proofs.Run.Observation

/-!
# What a run contributes for one function

A run never reports a function as fully covered of which an expression did not run.  The number of
branches that a run is taken to have executed is a share of the function's branches, rounded down,
so it is the number of all branches only if the share is the whole (`Attribution.share_eq_iff`): the
definition of the function owns a marker, and every marker that it owns ran.

From the number to the hits nothing is lost and nothing added.  There are as many hits as branches
were taken to have run, they are for canonical branches in ascending order (`Run.Hits.CountsFor`),
and none of them is a hit without a count, because a share of no expression is no branch.  So each
of them reaches the merge of the runs (`Run.Hits.contribution_rounded_down`).
-/

namespace BranchCoverage

open CaseTree RuntimeName

namespace Attribution

variable {canonical : Nat} {markers : List Marker}

/-- A part of a positive number, rounded down, is the whole number only if the part is the whole. -/
lemma mul_div_eq_self_iff {part whole : Nat} (hc : 0 < canonical) (hw : 0 < whole)
    (h : part ≤ whole) : canonical * part / whole = canonical ↔ part = whole := by
  constructor
  · intro full
    by_contra different
    have less : canonical * part < canonical * whole :=
      Nat.mul_lt_mul_of_pos_left (by omega) hc
    have below := (Nat.div_lt_iff_lt_mul hw).2 less
    omega
  · rintro rfl
    exact Nat.mul_div_cancel canonical hw

/-- Markers account for all branches exactly if there are any markers and each of them ran. -/
theorem share_eq_iff (hc : 0 < canonical) :
    share canonical markers = canonical ↔
      markers ≠ [] ∧ ∀ marker ∈ markers, marker.isExecuted = true := by
  rw [share]
  split
  · rename_i none
    constructor
    · omega
    · rintro ⟨some, -⟩
      exact absurd none some
  · rename_i some
    have fewer : markers.countP Marker.isExecuted ≤ markers.length := List.countP_le_length
    rw [mul_div_eq_self_iff hc (List.length_pos_iff.2 some) fewer, List.countP_eq_length]
    exact (and_iff_right some).symm

end Attribution

namespace Run.Hits

/-- The hits are for as many canonical branches of a function as the number says, in ascending
order, and each of them counts. -/
structure CountsFor (hits : List Hit) (function : Function) (number : Nat) : Prop where
  length : hits.length = number
  canonical : ∀ hit ∈ hits, ∃ branch ∈ function.branches,
    branch.kind = .canonical ∧ branch.id = hit.id
  ascending : (hits.map Hit.id).Pairwise fun a b => a.branchIndex < b.branchIndex
  count_pos : ∀ hit ∈ hits, 0 < hit.count

variable {function : Function} {attribution : Attribution} {profile : Profile} {scheme : Scheme}

/-- A share that is not larger than the whole, and positive only if something ran, gives hits that
count. -/
lemma countsFor_ofAttribution (numbered : function.Numbered)
    (fewer : attribution.branchesRun function.canonicalCount ≤ function.canonicalCount)
    (ran : 0 < attribution.branchesRun function.canonicalCount → 0 < attribution.stats.executed) :
    CountsFor (ofAttribution function attribution) function
      (attribution.branchesRun function.canonicalCount) := by
  have length : (ofAttribution function attribution).length =
      attribution.branchesRun function.canonicalCount := by
    rw [ofAttribution, List.length_map, List.length_take]
    exact Nat.min_eq_left fewer
  refine ⟨length, ?_, ?_, ?_⟩
  · intro hit hmem
    obtain ⟨branch, taken, rfl⟩ := List.mem_map.1 hmem
    obtain ⟨hb, canonical⟩ := List.mem_filter.1 (List.mem_of_mem_take taken)
    exact ⟨branch, hb, Branch.Kind.isCanonical_iff.1 canonical, rfl⟩
  · rw [ids_ofAttribution]
    have front : (function.canonicalBranches.take
        (attribution.branchesRun function.canonicalCount)).Sublist function.branches :=
      (List.take_sublist _ _).trans List.filter_sublist
    exact numbered.pairwise_branchIndex.sublist (front.map Branch.id)
  · intro hit hmem
    have some : 0 < (ofAttribution function attribution).length := List.length_pos_of_mem hmem
    obtain ⟨branch, -, rfl⟩ := List.mem_map.1 hmem
    exact ran (length ▸ some)

/-- Each function contributes by itself, in its place. -/
lemma hits_ofProfile_append_cons (found : Attribution.of? profile scheme function = some attribution)
    (before after : List Function) (run : String) :
    (ofProfile { functions := before ++ function :: after } run profile scheme).hits =
      (ofProfile { functions := before } run profile scheme).hits ++
        ofAttribution function attribution ++
          (ofProfile { functions := after } run profile scheme).hits := by
  simp only [hits_ofProfile, List.flatMap_append, List.flatMap_cons, found, Option.map_some,
    Option.getD_some, List.append_assoc]

/-- **A share is rounded down, and never up.**  Of a function with canonical branches a run is taken
to have executed all of them exactly if the definition that the function is attributed to owns some
marker and every marker that it owns ran, and none of them unless some marker ran.  The run has as
many hits for the function as branches are taken to have run, and every one of these hits covers its
branch. -/
theorem contribution_rounded_down {line : List Char} {annotated definitions : String}
    (read : Function.ofLine? line = some function) (nonempty : 0 < function.canonicalCount)
    (found : Attribution.of? (.ofTexts annotated definitions) scheme function =
      some attribution) :
    let markers := (Marker.scan annotated).1.filter
      (attribution.definition.Owns (Definition.scan definitions))
    let ran := attribution.branchesRun function.canonicalCount
    let own := ofAttribution function attribution
    let hits (functions : List Function) (run : String) :=
      ofProfile { functions } run (.ofTexts annotated definitions) scheme
    attribution.stats.executed ≤ attribution.stats.total ∧
    ran ≤ function.canonicalCount ∧
    (ran = function.canonicalCount ↔ markers ≠ [] ∧ ∀ marker ∈ markers, 0 < marker.count) ∧
    (0 < ran → 0 < attribution.stats.executed) ∧
    CountsFor own function ran ∧
    (∀ before after run, (hits (before ++ function :: after) run).hits =
      (hits before run).hits ++ own ++ (hits after run).hits) ∧
    ∀ before after run, ∀ runs, hits (before ++ function :: after) run ∈ runs →
      ∀ hit ∈ own, hit.id ∈ Run.merge runs := by
  intro markers ran own hits
  have attributed := found
  rw [Attribution.of?_eq_map, Option.map_eq_some_iff] at attributed
  obtain ⟨definition, -, rfl⟩ := attributed
  have stats := Attribution.stats_toDefinition annotated definitions definition
  have share : ran = Attribution.share function.canonicalCount markers :=
    Attribution.branchesRun_toDefinition annotated definitions definition function.canonicalCount
  have fewer : ran ≤ function.canonicalCount := share ▸ Attribution.share_le _ markers
  have positive : 0 < ran → 0 < (Attribution.toDefinition
      (.ofTexts annotated definitions) definition).stats.executed := by
    intro h
    rw [stats]
    exact Attribution.exists_executed_of_share_pos (share ▸ h)
  have counts := countsFor_ofAttribution (Function.numbered_of_ofLine? read) fewer positive
  have contributed := hits_ofProfile_append_cons found
  refine ⟨?_, fewer, ?_, positive, counts, contributed, ?_⟩
  · rw [stats]
    exact LineStats.executed_ofList_le markers
  · rw [share, Attribution.share_eq_iff nonempty]
    simp only [Marker.isExecuted, decide_eq_true_eq]
  · intro before after run runs hrun hit hown
    refine Run.mem_merge.2 ⟨_, hrun, hit, ?_, counts.count_pos hit hown, rfl⟩
    rw [contributed]
    exact List.mem_append_left _ (List.mem_append_right _ hown)

/-- Of three expressions all but one ran, which is two of three branches.  The expression on the
next line belongs to another definition. -/
theorem contribution_rounded_down_two_of_three :
    let line := "Main.f = [] (%concase A 0) (%concase B 1) (%constcase 7 2)".toList
    let annotated := "title=\"line 1 char 1 count 4\" title=\"line 1 char 5 count 0\"
      title=\"line 1 char 9 count 1\" title=\"line 2 char 1 count 8\""
    let definitions := "(define MainC-46f\n(define MainC-46g\n"
    ∃ function attribution, Function.ofLine? line = some function ∧
      function.canonicalCount = 3 ∧
      Attribution.of? (.ofTexts annotated definitions) .uniform function = some attribution ∧
      attribution.stats = ⟨2, 3⟩ ∧ CountsFor (ofAttribution function attribution) function 2 := by
  intro line annotated definitions
  let function := Function.ofBody "Main.f" (line.drop 8)
  let attribution := Attribution.toDefinition (.ofTexts annotated definitions) ⟨"MainC-46f", 1⟩
  have read : Function.ofLine? line = some function := by decide +kernel
  have first : Attribution.find? "MainC-46f" (Definition.scan definitions) = some 0 := by
    decide +kernel
  have named : Scheme.uniform.runtimeName function.name = "MainC-46f" := by decide +kernel
  have found : Attribution.of? (.ofTexts annotated definitions) .uniform function =
      some attribution :=
    Attribution.of?_eq_some_of_find? (named ▸ first) (by decide +kernel)
  have canonical : function.canonicalCount = 3 := by decide +kernel
  have stats : attribution.stats = ⟨2, 3⟩ := by decide +kernel
  have two : attribution.branchesRun function.canonicalCount = 2 := by
    rw [Attribution.branchesRun, canonical, stats]
    rfl
  obtain ⟨-, -, -, -, counts, -, -⟩ :=
    contribution_rounded_down read (by rw [canonical]; decide) found
  exact ⟨function, attribution, read, canonical, found, stats, two ▸ counts⟩

end Run.Hits

end BranchCoverage
