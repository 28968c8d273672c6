import BranchCoverage.Artifact.Kind
import BranchCoverage.Artifact.Path
import BranchCoverage.Text.Line
import BranchCoverage.Text.Utf8

/-!
# Telling artifacts apart

The extension of a file decides when it is one of the usual ones.  Otherwise the beginning of the
file does: a profiler title makes it annotations, a line with a top-level definition makes it
definitions, and a line with a separator and a case expression or a crash makes it a dump, in this
order.  A file may be none of them.
-/

namespace BranchCoverage.Artifact

open Text

def headLength : Nat := 4096

/-- The kind that a file extension stands for, in whatever case. -/
def Kind.ofExtension? (extension : String) : Option Kind :=
  let lower := String.ofList (extension.toList.map Char.toLower)
  if lower = "html" || lower = "htm" then some .annotations
  else if lower = "ss" || lower = "scm" then some .definitions
  else none

/-- Whether a line may stand in a dump. -/
def looksLikeDumpLine (line : List Char) : Bool :=
  contains " = ".toList line && (contains "%case".toList line || contains "(CRASH ".toList line)

/-- The kind that the beginning of a file shows. -/
def Kind.ofHead? (head : List Char) : Option Kind :=
  if contains "title=\"line ".toList head then some .annotations
  else if (lines head).any fun line => "(define ".toList.isPrefixOf line then some .definitions
  else if (lines head).any looksLikeDumpLine then some .dump
  else none

def detect? (path : String) (content : List UInt8) : Option Kind :=
  ((Path.extension? path).bind Kind.ofExtension?).or
    (Kind.ofHead? (Utf8.decodeLossy (content.take headLength)))

end BranchCoverage.Artifact
