import BranchCoverage.Attribution

/-!
# What a run contributes

Attribution turns the profile of one run into hits.  A function of which `k` branches are taken to
have run contributes a hit for each of its first `k` canonical branches, in branch order, and each
hit carries the number of expressions that ran in the function.  A function that no definition
carries is *unmapped*: it contributes no hit, and its name is kept for the user to see.
-/

namespace BranchCoverage.Run

open CaseTree RuntimeName

/-- A branch that a run is taken to have executed. -/
structure Hit where
  id : Branch.Id
  /-- The number of expressions that ran in the function of the branch. -/
  count : Nat
  deriving DecidableEq, Repr, Inhabited

/-- Everything that one run contributes. -/
structure Hits where
  run : String
  hits : List Hit
  /-- The names of the functions that no definition of the run carries, in dump order. -/
  unmapped : List String
  deriving DecidableEq, Repr, Inhabited

namespace Hits

def ofAttribution (function : Function) (attribution : Attribution) : List Hit :=
  (function.canonicalBranches.take (attribution.branchesRun function.canonicalCount)).map
    fun branch => { id := branch.id, count := attribution.stats.executed }

def ofProfile (analysis : Analysis) (run : String) (profile : Profile) (scheme : Scheme) : Hits :=
  let attributed := analysis.functions.map fun function =>
    (function, Attribution.of? profile scheme function)
  { run
    hits := attributed.flatMap fun (function, found) =>
      (found.map (ofAttribution function)).getD []
    unmapped := attributed.filterMap fun (function, found) =>
      if found.isNone then some function.name else none }

/-- The hits of a run are those of its functions, one after the other. -/
theorem hits_ofProfile (analysis : Analysis) (run : String) (profile : Profile) (scheme : Scheme) :
    (ofProfile analysis run profile scheme).hits = analysis.functions.flatMap fun function =>
      ((Attribution.of? profile scheme function).map (ofAttribution function)).getD [] :=
  List.flatMap_map ..

/-- The log record of a function that is unmapped in a run.  It asks for attention only when the
function has branches to cover. -/
def unmappedRecord (run : String) (scheme : Scheme) (function : Function) : Record :=
  let missing := "run '" ++ run ++ "': no runtime definition for " ++ function.name
  if 0 < function.canonicalCount then
    { level := .warning
      text := missing ++ " (expected " ++ scheme.runtimeName function.name ++ ")" }
  else { level := .debug, text := missing }

def summaryRecord (hits : Hits) : Record :=
  { level := .info
    text := "run '" ++ hits.run ++ "': " ++ toString hits.hits.length ++ " branch hits, "
      ++ toString hits.unmapped.length ++ " unmapped functions" }

/-- What is logged about the contribution of a run: its unmapped functions, in dump order, and a
summary. -/
def records (analysis : Analysis) (scheme : Scheme) (hits : Hits) : List Record :=
  let unmapped := analysis.functions.filter fun function => hits.unmapped.contains function.name
  unmapped.map (unmappedRecord hits.run scheme) ++ [hits.summaryRecord]

def collect (analysis : Analysis) (run : String) (profile : Profile) (scheme : Scheme) :
    Outcome Failure Hits :=
  let hits := ofProfile analysis run profile scheme
  ⟨records analysis scheme hits, .ok hits⟩

end Hits

/-- The artifacts of one profiled execution, under the name of the run. -/
structure Artifacts where
  name : String
  annotated : String
  definitions : String
  deriving DecidableEq, Repr, Inhabited

namespace Artifacts

def profile (artifacts : Artifacts) : Outcome Failure Profile :=
  Profile.ofArtifacts (some artifacts.name) artifacts.annotated artifacts.definitions

def hits (artifacts : Artifacts) (analysis : Analysis) (scheme : Scheme) :
    Outcome Failure Hits := do
  let profile ← artifacts.profile
  Hits.collect analysis artifacts.name profile scheme

end Artifacts

end BranchCoverage.Run
