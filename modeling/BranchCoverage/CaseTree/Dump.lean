import BranchCoverage.CaseTree.DefinitionLine
import BranchCoverage.Text.Line

/-!
# Reading a dump

A dump is read line by line.  Blank lines are passed over, lines that define no function are
skipped and counted, and every other line gives one function, in dump order.
-/

namespace BranchCoverage

/-- How much of a text of records could be used. -/
structure Tally where
  parsed : Nat
  skipped : Nat
  deriving DecidableEq, Repr

namespace CaseTree

def definitionLines (text : List Char) : List (List Char) :=
  (Text.lines text).filter fun line => !Text.isBlankText line

/-- The functions of a dump, and how many lines gave one. -/
def readDump (text : String) : List Function × Tally :=
  let lines := definitionLines text.toList
  let functions := lines.filterMap Function.ofLine?
  (functions, ⟨functions.length, lines.length - functions.length⟩)

end CaseTree

end BranchCoverage
