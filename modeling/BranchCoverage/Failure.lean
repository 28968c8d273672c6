import BranchCoverage.Artifact.Kind

/-!
# Failures

What can go wrong is listed by cause.  The wording of each cause is in `Failure.message`, and
nowhere else; `Failure.category` groups the causes the way the message announces them.

Malformed records inside an artifact are no failure: they are skipped and counted.  Only an
artifact that is absent, blank or of the wrong kind, a configuration that cannot be read, and a
disk that does not answer stop a command.
-/

namespace BranchCoverage

inductive IoFailure where
  | notFound
  | notDirectory
  | isDirectory
  | malformedText
  | nulInName
  | nameTooLong
  | system (text : String)
  deriving DecidableEq, Repr

namespace IoFailure

/-- The text of the operating system for a failure. -/
def text : IoFailure → String
  | notFound => "No such file or directory (os error 2)"
  | notDirectory => "Not a directory (os error 20)"
  | isDirectory => "Is a directory (os error 21)"
  | malformedText => "stream did not contain valid UTF-8"
  | nulInName => "file name contained an unexpected NUL byte"
  | nameTooLong => "File name too long (os error 36)"
  | system text => text

end IoFailure

/-- Why a measurement came to no result. -/
inductive Failure where
  | io (cause : IoFailure)
  | malformedConfig
  /-- An artifact has nothing in it; an artifact of a run is reported with the name of the run. -/
  | blank (kind : Artifact.Kind) (run : Option String)
  | absent (path : String)
  /-- No file of a run directory is an annotation with something in it. -/
  | noAnnotations (directory : String)
  /-- No annotation of a run directory has its definitions beside it. -/
  | noDefinitions (directory : String)
  | noRuns
  | notADump (path : String) (kind : Artifact.Kind)
  | severalPrograms (run : String) (files : List String)
  deriving DecidableEq, Repr

namespace Failure

/-- The groups of causes that messages tell apart. -/
inductive Category where
  | io
  | json
  | missingArtifact
  | parse
  | other
  deriving DecidableEq, Repr

def category : Failure → Category
  | io _ => .io
  | malformedConfig => .json
  | blank .. | absent _ | noAnnotations _ | noDefinitions _ | noRuns => .missingArtifact
  | notADump .. => .parse
  | severalPrograms .. => .other

/-- What a message of a group starts with. -/
def Category.announcement : Category → String
  | io => "I/O error: "
  | json => "JSON error: "
  | missingArtifact => "Missing artifact: "
  | parse => "Parse error: "
  | other => ""

def inRun (run message : String) : String :=
  "run '" ++ run ++ "': " ++ message

def detail : Failure → String
  | io cause => cause.text
  | malformedConfig => "the configuration cannot be read"
  | blank kind none => kind.content ++ " is empty"
  | blank kind (some run) => inRun run (kind.content ++ " is empty")
  | absent path => path ++ " does not exist"
  | noAnnotations directory => "no profiler annotations in " ++ directory
  | noDefinitions directory => "no definitions source for the annotations in " ++ directory
  | noRuns => "no test runs given"
  | notADump path kind => path ++ " looks like " ++ kind.label ++ ", not a case-tree dump"
  | severalPrograms run files =>
    "run '" ++ run ++ "' holds profiles of " ++ toString files.length ++ " programs ("
      ++ ", ".intercalate files ++ "); give each its own directory"

def message (failure : Failure) : String :=
  failure.category.announcement ++ failure.detail

end Failure

end BranchCoverage
