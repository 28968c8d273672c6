import BranchCoverage.Text.Search

/-!
# Lines

A line ends at a line feed, and at nothing else.  A carriage return directly before that line feed
belongs to the line end and is dropped; a carriage return anywhere else, also one that ends the
text, belongs to the line.  A text that ends in a line feed has no further empty line behind it.

`lines` is stated on the segments between line feeds: all but the last segment are terminated
lines, and the last is a line only when it is not empty.
-/

namespace BranchCoverage.Text

/-- A terminated line without the carriage return that is part of its line end. -/
def dropCarriageReturn (line : List Char) : List Char :=
  if line.getLast? = some '\r' then line.dropLast else line

def lines (text : List Char) : List (List Char) :=
  let pieces := segments '\n' text
  pieces.dropLast.map dropCarriageReturn ++ (pieces.getLast?.filter (!·.isEmpty)).toList

theorem lines_nil : lines [] = [] := rfl

end BranchCoverage.Text
