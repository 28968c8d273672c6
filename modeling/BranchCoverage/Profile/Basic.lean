import BranchCoverage.Failure
import BranchCoverage.Outcome
import BranchCoverage.Profile.Definition
import BranchCoverage.Profile.LineTable

/-!
# Profiles

A profile is what one execution left behind, in the form that attribution needs: the statistics of
every annotated line, and the definitions that the lines belong to.

Both artifacts have to hold something.  A blank one means that the execution produced no profile at
all, which is not the same as a profile in which nothing ran.
-/

namespace BranchCoverage

structure Profile where
  lines : LineTable
  definitions : List Definition
  /-- How many of the annotation's titles gave a marker. -/
  tally : Tally
  deriving DecidableEq, Repr

namespace Profile

def ofTexts (annotated definitions : String) : Profile :=
  let (markers, tally) := Marker.scan annotated
  { lines := .ofMarkers markers, definitions := Definition.scan definitions, tally }

theorem definitions_ofTexts (annotated definitions : String) :
    (ofTexts annotated definitions).definitions = Definition.scan definitions := rfl

/-- What is logged about a profile: how many titles gave no marker, if there are any. -/
def records (profile : Profile) : List Record :=
  if profile.tally.skipped = 0 then []
  else
    [{ level := .debug
       text := "profiler: discarded " ++ toString profile.tally.skipped ++ " malformed markers ("
        ++ toString profile.tally.parsed ++ " kept)" }]

/-- The artifact of a pair that has nothing in it; the annotations are looked at first. -/
def blankArtifact? (annotated definitions : String) : Option Artifact.Kind :=
  if Text.isBlankText annotated.toList then some .annotations
  else if Text.isBlankText definitions.toList then some .definitions
  else none

/-- The profile in two artifacts of a run, both of which must have something in them. -/
def ofArtifacts (run : Option String) (annotated definitions : String) : Outcome Failure Profile :=
  match blankArtifact? annotated definitions with
  | some kind => ⟨[], .error (.blank kind run)⟩
  | none =>
    let profile := ofTexts annotated definitions
    ⟨profile.records, .ok profile⟩

end Profile

end BranchCoverage
