import BranchCoverage.Text.Search

/-!
# Paths

Paths are texts, and stay as the user wrote them wherever they are shown.  What is asked of a path
is read off its components, the parts between slashes: empty ones and single dots do not count, so a
slash at the end of a path changes nothing.

The extension of a file name is what stands behind its last dot.  A name without a dot has none, and
neither has a name whose only dot is its first character.
-/

namespace BranchCoverage.Artifact.Path

open Text

def components (path : String) : List String :=
  ((segments '/' path.toList).filter fun part => part ≠ [] && part ≠ ['.']).map String.ofList

/-- The last component of a path, unless it leads upwards. -/
def fileName? (path : String) : Option String :=
  (components path).getLast?.filter (· ≠ "..")

/-- A file name without its extension, and the extension if there is one. -/
def splitExtension (name : String) : String × Option String :=
  match splitAtLast? '.' name.toList with
  | none | some ([], _) => (name, none)
  | some (stem, extension) => (String.ofList stem, some (String.ofList extension))

def stem (name : String) : String :=
  (splitExtension name).1

def extension? (path : String) : Option String := do
  let name ← fileName? path
  (splitExtension name).2

def inDirectory (directory name : String) : String :=
  if directory.isEmpty || directory.endsWith "/" then directory ++ name
  else directory ++ "/" ++ name

end BranchCoverage.Artifact.Path
