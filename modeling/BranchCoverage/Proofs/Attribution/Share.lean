import BranchCoverage.Proofs.Attribution.Selection
import BranchCoverage.Proofs.Profile.LineSums
import BranchCoverage.Run.Hits

/-!
# The share of a function that ran

An attribution says how many branches of a function are taken to have run, computed from line
statistics.  Here the number is expressed in what a run leaves on disk: the markers of its annotated
source and the definitions of its definitions source.

* `Definition.Owns` says which markers belong to a definition: those from its line on, up to the
  next larger line of a definition.  Attribution cuts the same lines out (`contains_ofDefinition`).
* `share` is the number of branches that markers account for: as large a part of the branches as the
  part of the markers that ran, rounded down.  It is never more than there are (`share_le`), and it
  is positive only if some marker ran (`exists_executed_of_share_pos`).
* `Run.Artifacts.branchesRun` puts the two together, and `hits_contribution` says that a run hits
  exactly the first so many canonical branches of each function.
-/

namespace BranchCoverage

open CaseTree RuntimeName

/-! ## The lines of a definition -/

/-- A marker stands on a line of a definition: not above it, and above every definition on a larger
line. -/
def Definition.Owns (definitions : List Definition) (definition : Definition) (marker : Marker) :
    Prop :=
  definition.line ≤ marker.line ∧
    ∀ other ∈ definitions, definition.line < other.line → marker.line < other.line

instance (definitions : List Definition) (definition : Definition) (marker : Marker) :
    Decidable (definition.Owns definitions marker) :=
  inferInstanceAs (Decidable (_ ∧ _))

/-- The smallest larger line bounds an extent exactly as all larger lines together do. -/
lemma Extent.contains_ofDefinition {start line : Nat} {others : List Nat} :
    (ofDefinition start others).contains line = true ↔
      start ≤ line ∧ ∀ other ∈ others, start < other → line < other := by
  have larger : ∀ other, other ∈ others.filter (start < ·) ↔ other ∈ others ∧ start < other := by
    simp
  rw [contains, ofDefinition, Bool.and_eq_true, decide_eq_true_eq]
  refine and_congr_right fun _ => ?_
  cases h : (others.filter (start < ·)).min? with
  | none =>
    have empty := List.min?_eq_none_iff.1 h
    simp only [Option.all_none, true_iff]
    intro other hmem hlt
    have absurdity := (larger other).2 ⟨hmem, hlt⟩
    rw [empty] at absurdity
    cases absurdity
  | some stop =>
    obtain ⟨hstop, least⟩ := List.min?_eq_some_iff.1 h
    simp only [Option.all_some, decide_eq_true_eq]
    constructor
    · intro below other hmem hlt
      exact Nat.lt_of_lt_of_le below (least other ((larger other).2 ⟨hmem, hlt⟩))
    · intro below
      obtain ⟨hmem, hlt⟩ := (larger stop).1 hstop
      exact below stop hmem hlt

namespace Attribution

/-! ## Shares -/

/-- How many of `canonical` branches the markers of a function account for.  No marker accounts for
no branch. -/
def share (canonical : Nat) (markers : List Marker) : Nat :=
  if markers = [] then 0 else canonical * markers.countP Marker.isExecuted / markers.length

/-- Markers account for no more branches than there are. -/
lemma share_le (canonical : Nat) (markers : List Marker) : share canonical markers ≤ canonical := by
  rw [share]
  split
  · exact Nat.zero_le _
  · have fewer : markers.countP Marker.isExecuted ≤ markers.length := List.countP_le_length
    apply Nat.div_le_of_le_mul
    rw [Nat.mul_comm markers.length]
    exact Nat.mul_le_mul_left canonical fewer

/-- Markers of which none ran account for no branch. -/
lemma exists_executed_of_share_pos {canonical : Nat} {markers : List Marker}
    (h : 0 < share canonical markers) : 0 < markers.countP Marker.isExecuted := by
  rw [share] at h
  split at h
  · omega
  · by_contra none
    have zero : markers.countP Marker.isExecuted = 0 := by omega
    rw [zero, Nat.mul_zero, Nat.zero_div] at h
    omega

/-- The definition that a function is attributed to, if there is one. -/
def definition? (scheme : Scheme) (definitions : List Definition) (function : Function) :
    Option Definition :=
  (find? (scheme.runtimeName function.name) definitions).bind fun place => definitions[place]?

lemma of?_eq_map (profile : Profile) (scheme : Scheme) (function : Function) :
    of? profile scheme function =
      (definition? scheme profile.definitions function).map (toDefinition profile) := by
  rw [of?, definition?]
  cases find? (scheme.runtimeName function.name) profile.definitions with
  | none => rfl
  | some place => cases h : profile.definitions[place]? <;> simp [h]

/-- The statistics of an attribution are those of the markers that its definition owns. -/
lemma stats_toDefinition (annotated definitions : String) (definition : Definition) :
    (toDefinition (.ofTexts annotated definitions) definition).stats =
      .ofList ((Marker.scan annotated).1.filter
        (definition.Owns (Definition.scan definitions))) := by
  have sum : (toDefinition (.ofTexts annotated definitions) definition).stats =
      (LineTable.ofMarkers (Marker.scan annotated).1).sumOver
        (Extent.ofDefinition definition.line
          ((Definition.scan definitions).map Definition.line)).contains := rfl
  rw [sum, LineTable.sumOver_ofMarkers]
  congr 1
  apply List.filter_congr
  intro marker _
  rw [Bool.eq_iff_iff, Extent.contains_ofDefinition, decide_eq_true_iff, Definition.Owns]
  simp

lemma branchesRun_toDefinition (annotated definitions : String) (definition : Definition)
    (canonical : Nat) :
    (toDefinition (.ofTexts annotated definitions) definition).branchesRun canonical =
      share canonical ((Marker.scan annotated).1.filter
        (definition.Owns (Definition.scan definitions))) := by
  rw [branchesRun, stats_toDefinition, LineStats.ofList, share]
  split
  · rename_i none
    simp [none]
  · rfl

end Attribution

/-! ## What a run hits -/

namespace Run.Artifacts

/-- The markers of a run that a definition of the run owns. -/
def owned (artifacts : Artifacts) (definition : Definition) : List Marker :=
  (Marker.scan artifacts.annotated).1.filter
    (definition.Owns (Definition.scan artifacts.definitions))

/-- The number of branches of a function that a run is taken to have executed: none if no definition
carries the function, and otherwise the share of the markers of its definition. -/
def branchesRun (artifacts : Artifacts) (scheme : Scheme) (function : Function) : Nat :=
  match Attribution.definition? scheme (Definition.scan artifacts.definitions) function with
  | none => 0
  | some definition => Attribution.share function.canonicalCount (artifacts.owned definition)

lemma branchesRun_le (artifacts : Artifacts) (scheme : Scheme) (function : Function) :
    artifacts.branchesRun scheme function ≤ function.canonicalCount := by
  rw [branchesRun]
  split
  · exact Nat.zero_le _
  · exact Attribution.share_le _ _

/-- The number of expressions of a function that ran. -/
def expressionsRun (artifacts : Artifacts) (scheme : Scheme) (function : Function) : Nat :=
  match Attribution.definition? scheme (Definition.scan artifacts.definitions) function with
  | none => 0
  | some definition => (artifacts.owned definition).countP Marker.isExecuted

/-- A run that executes a branch of a function executes an expression of it. -/
lemma expressionsRun_pos {artifacts : Artifacts} {scheme : Scheme} {function : Function}
    (h : 0 < artifacts.branchesRun scheme function) :
    0 < artifacts.expressionsRun scheme function := by
  rw [branchesRun] at h
  rw [expressionsRun]
  cases hd : Attribution.definition? scheme (Definition.scan artifacts.definitions) function with
  | none => simp [hd] at h
  | some definition =>
    rw [hd] at h
    exact Attribution.exists_executed_of_share_pos h

/-- A branch that a run takes from the front of a function's is one of at least one. -/
lemma branchesRun_pos_of_mem_take {artifacts : Artifacts} {scheme : Scheme} {function : Function}
    {branch : Branch}
    (h : branch ∈ function.canonicalBranches.take (artifacts.branchesRun scheme function)) :
    0 < artifacts.branchesRun scheme function := by
  by_contra none
  have zero : artifacts.branchesRun scheme function = 0 := by omega
  simp [zero] at h

/-- The hits of a run for one function: its first canonical branches, as many as ran. -/
def hitsOf (artifacts : Artifacts) (scheme : Scheme) (function : Function) : List Hit :=
  (function.canonicalBranches.take (artifacts.branchesRun scheme function)).map fun branch =>
    { id := branch.id, count := artifacts.expressionsRun scheme function }

/-- What a run contributes when its artifacts can be used. -/
def contribution (artifacts : Artifacts) (analysis : Analysis) (scheme : Scheme) : Hits :=
  .ofProfile analysis artifacts.name (.ofTexts artifacts.annotated artifacts.definitions) scheme

lemma hits_contribution (artifacts : Artifacts) (analysis : Analysis) (scheme : Scheme) :
    (artifacts.contribution analysis scheme).hits =
      analysis.functions.flatMap (artifacts.hitsOf scheme) := by
  rw [contribution, Hits.hits_ofProfile]
  congr 1
  funext function
  rw [Attribution.of?_eq_map, hitsOf, branchesRun, expressionsRun, Profile.definitions_ofTexts]
  cases Attribution.definition? scheme (Definition.scan artifacts.definitions) function with
  | none => simp
  | some definition =>
    simp only [Option.map_some, Option.getD_some]
    rw [Hits.ofAttribution, Attribution.branchesRun_toDefinition, Attribution.stats_toDefinition]
    rfl

/-- A run hits the first canonical branches of each function, as many as it is taken to have
executed, and each of them at least once. -/
theorem exists_hit_iff {artifacts : Artifacts} {analysis : Analysis} {scheme : Scheme}
    {id : Branch.Id} :
    (∃ hit ∈ (artifacts.contribution analysis scheme).hits, 0 < hit.count ∧ hit.id = id) ↔
      ∃ function ∈ analysis.functions, ∃ branch ∈ function.canonicalBranches.take
        (artifacts.branchesRun scheme function), branch.id = id := by
  rw [hits_contribution]
  constructor
  · rintro ⟨hit, hmem, -, rfl⟩
    obtain ⟨function, hfunction, hmem⟩ := List.mem_flatMap.1 hmem
    obtain ⟨branch, hbranch, rfl⟩ := List.mem_map.1 hmem
    exact ⟨function, hfunction, branch, hbranch, rfl⟩
  · rintro ⟨function, hfunction, branch, hbranch, rfl⟩
    have some := branchesRun_pos_of_mem_take hbranch
    exact ⟨_, List.mem_flatMap.2 ⟨function, hfunction, List.mem_map.2 ⟨branch, hbranch, rfl⟩⟩,
      expressionsRun_pos some, rfl⟩

lemma result_profile_eq_ok_iff {artifacts : Artifacts} {profile : Profile} :
    artifacts.profile.result = .ok profile ↔
      Profile.blankArtifact? artifacts.annotated artifacts.definitions = none ∧
        profile = .ofTexts artifacts.annotated artifacts.definitions := by
  rw [Artifacts.profile, Profile.ofArtifacts]
  cases Profile.blankArtifact? artifacts.annotated artifacts.definitions with
  | some kind => simp
  | none => simp [eq_comm]

/-- Exactly the runs without a blank artifact contribute. -/
lemma result_hits_eq_ok_iff {artifacts : Artifacts} {analysis : Analysis} {scheme : Scheme}
    {hits : Hits} :
    (artifacts.hits analysis scheme).result = .ok hits ↔
      Profile.blankArtifact? artifacts.annotated artifacts.definitions = none ∧
        hits = artifacts.contribution analysis scheme := by
  rw [Artifacts.hits, Outcome.result_bind_eq_ok_iff]
  simp only [result_profile_eq_ok_iff]
  constructor
  · rintro ⟨_, ⟨usable, rfl⟩, collected⟩
    exact ⟨usable, (Except.ok.inj collected).symm⟩
  · rintro ⟨usable, rfl⟩
    exact ⟨_, ⟨usable, rfl⟩, rfl⟩

end Run.Artifacts

end BranchCoverage
