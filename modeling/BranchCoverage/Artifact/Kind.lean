/-!
# Artifacts

Three kinds of file take part in a measurement: the case-tree dump that the compiler writes, and
the two files that a profiled execution leaves behind.  The annotations are the program's source
as hypertext, with a counter at every expression; the definitions are that same source, with a
top-level definition at the start of a line.
-/

namespace BranchCoverage.Artifact

inductive Kind where
  | dump
  | annotations
  | definitions
  deriving DecidableEq, Repr

namespace Kind

/-- What a file of this kind is called when it turns up in the wrong place. -/
def label : Kind → String
  | dump => "case-tree dump"
  | annotations => "profile annotations"
  | definitions => "profile definitions"

/-- What a text of this kind is called when there is nothing in it. -/
def content : Kind → String
  | dump => "case-tree dump"
  | annotations => "annotated profiler output"
  | definitions => "runtime definitions source"

end Kind

end BranchCoverage.Artifact
