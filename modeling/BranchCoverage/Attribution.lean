import BranchCoverage.CaseTree.Analysis
import BranchCoverage.Profile.Basic
import BranchCoverage.RuntimeName

/-!
# Attribution

A profile knows lines, an analysis knows functions.  A function is attributed to the definition that
carries its runtime name, and to the lines from that definition up to the next one.

* **Which definition.**  The first one with exactly the runtime name of the function; if there is
  none, the first one whose name ends in it, because the back end may put something in front.  A
  name that only occurs inside another is never taken.
* **Which lines.**  From the line of the definition to the line before the next larger definition
  line, or to the end of the file.
* **How many branches.**  Line statistics cannot tell which branch ran.  With `executed` of `total`
  expressions of the extent having run, that share of the function's canonical branches, rounded
  down, is taken to have run.  An extent without an expression gives no branch: division by zero
  yields zero, as it should here.
-/

namespace BranchCoverage

open CaseTree RuntimeName

/-- Consecutive lines: from `start` up to, and without, `stop`; to the end of the file if there is
no `stop`. -/
structure Extent where
  start : Nat
  /-- The line behind the last one. -/
  stop : Option Nat
  deriving DecidableEq, Repr

namespace Extent

def contains (extent : Extent) (line : Nat) : Bool :=
  extent.start ≤ line && extent.stop.all (line < ·)

/-- The lines of the definition on line `start`, among definitions on the lines `others`. -/
def ofDefinition (start : Nat) (others : List Nat) : Extent :=
  { start, stop := (others.filter (start < ·)).min? }

end Extent

/-- The definition that a function was attributed to, with what ran there. -/
structure Attribution where
  definition : Definition
  extent : Extent
  stats : LineStats
  deriving DecidableEq, Repr

namespace Attribution

/-- The place of the definition for a runtime name in a list of definitions. -/
def find? (runtimeName : String) (definitions : List Definition) : Option Nat :=
  (definitions.findIdx? fun definition => definition.runtimeName = runtimeName).or
    (definitions.findIdx? fun definition => definition.runtimeName.endsWith runtimeName)

/-- The attribution of a function to a definition of a profile. -/
def toDefinition (profile : Profile) (definition : Definition) : Attribution :=
  let extent := Extent.ofDefinition definition.line (profile.definitions.map Definition.line)
  { definition, extent, stats := profile.lines.sumOver extent.contains }

/-- The attribution of a function, if some definition carries its name. -/
def of? (profile : Profile) (scheme : Scheme) (function : Function) : Option Attribution := do
  let place ← find? (scheme.runtimeName function.name) profile.definitions
  let definition ← profile.definitions[place]?
  return toDefinition profile definition

/-- How many of `canonical` branches are taken to have run. -/
def branchesRun (attribution : Attribution) (canonical : Nat) : Nat :=
  canonical * attribution.stats.executed / attribution.stats.total

end Attribution

end BranchCoverage
