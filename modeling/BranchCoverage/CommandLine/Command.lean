import BranchCoverage.Report.Serialized
import BranchCoverage.Report.Text
import BranchCoverage.Run.Directory

/-!
# Commands

There are three commands: to analyse a dump without any run, to report the coverage of runs, and to
print runtime names.  Each is a function of the disk, and its result is the text to be printed.

A command that fails says what it was doing, if that is worth saying, and why it could not go on.
Its parts are done in a fixed order, which decides what is reported of a command with several
faults: the configuration comes before the dump, the dump before the runs, and the runs in the order
in which they were given; only then is anything matched.
-/

namespace BranchCoverage.CommandLine

open CaseTree RuntimeName

/-! ## What a command was doing when it failed -/

/-- A part of a command that reads a file or a directory. -/
inductive Activity where
  | loadingConfig (path : String)
  | analyzing (path : String)
  | loadingRun (run path : String)
  deriving DecidableEq, Repr

/-- The complaint that an activity failed. -/
def Activity.complaint : Activity → String
  | loadingConfig path => "Failed to load config " ++ path
  | analyzing path => "Failed to analyze " ++ path
  | loadingRun run path => "Failed to load run '" ++ run ++ "' from " ++ path

structure CommandFailure where
  activity : Option Activity
  cause : Failure
  deriving DecidableEq, Repr

namespace CommandFailure

/-- The explanations of a failure, from the outermost to the innermost.  Where the disk or the
configuration is at fault, what it said comes once more, on its own. -/
def chain (failure : CommandFailure) : List String :=
  let innermost := match failure.cause.category with
    | .io | .json => [failure.cause.detail]
    | _ => []
  (failure.activity.map Activity.complaint).toList ++ failure.cause.message :: innermost

end CommandFailure

/-- An outcome that a command reports as part of an activity. -/
def during {α : Type} (activity : Activity) (outcome : Outcome Failure α) :
    Outcome CommandFailure α :=
  outcome.mapFailure (⟨some activity, ·⟩)

/-- An outcome that a command reports as it is. -/
def directly {α : Type} (outcome : Outcome Failure α) : Outcome CommandFailure α :=
  outcome.mapFailure (⟨none, ·⟩)

/-! ## The arguments of a report -/

inductive Style where
  | text
  | json
  deriving DecidableEq, Repr

namespace Style

def label : Style → String
  | text => "text"
  | json => "json"

def ofLabel? (word : String) : Option Style :=
  [text, json].find? fun style => style.label = word

def format (style : Style) (report : Report) : String :=
  match style with
  | text => report.text
  | json => report.serialized

end Style

/-- A run as it is given on the command line: its name and its directory. -/
structure RunArgument where
  name : String
  directory : String
  deriving DecidableEq, Repr

/-- Reads an argument `NAME=DIRECTORY` or `DIRECTORY`.  Without a name, the run is called after the
last component of its directory. -/
def RunArgument.of (argument : String) : RunArgument :=
  let characters := argument.toList
  match characters.takeWhile (· ≠ '='), characters.dropWhile (· ≠ '=') with
  | first :: name, _ :: directory => ⟨String.ofList (first :: name), String.ofList directory⟩
  | _, _ => ⟨(Artifact.Path.fileName? argument).getD "unnamed", argument⟩

structure ReportRequest where
  dump : String
  runs : List String
  style : Style := .text
  exclude : List String := []
  config : Option String := none
  scheme : Option Scheme := none
  deriving DecidableEq, Repr

/-! ## The commands -/

def ReportRequest.loadConfig (disk : Disk) (request : ReportRequest) :
    Outcome CommandFailure Config := do
  let config ← match request.config with
    | some path => during (.loadingConfig path) (.ofResult (disk.loadConfig path))
    | none => pure {}
  return config.override request.scheme request.exclude

def RunArgument.load (disk : Disk) (run : RunArgument) : Outcome CommandFailure Run.Artifacts :=
  during (.loadingRun run.name run.directory) (Run.Artifacts.load disk run.name run.directory)

def ReportRequest.measure (disk : Disk) (request : ReportRequest) :
    Outcome CommandFailure (Coverage × Config) := do
  if request.runs.isEmpty then directly (.fail .noRuns)
  else
    let config ← request.loadConfig disk
    let analysis ← during (.analyzing request.dump) (disk.loadDump request.dump)
    let runs ← request.runs.mapM fun argument => (RunArgument.of argument).load disk
    let coverage ← directly (Coverage.ofArtifacts analysis config.scheme runs)
    return (coverage, config)

def reportOf (generatedAt : String) (coverage : Coverage) (config : Config) : Report :=
  .ofCoverage generatedAt coverage (Target.visible config.exclusions coverage.targets)

/-- Prints a report that is made at a given time. -/
def report (disk : Disk) (generatedAt : String) (request : ReportRequest) :
    Outcome CommandFailure String := do
  let (coverage, config) ← request.measure disk
  return request.style.format (reportOf generatedAt coverage config)

def analyze (disk : Disk) (dump : String) : Outcome CommandFailure String := do
  let analysis ← during (.analyzing dump) (disk.loadDump dump)
  return analysis.summary.text

/-- Prints names with their runtime names, a name to a line. -/
def runtimeNames (scheme : Scheme) (names : List String) : String :=
  String.join (names.map fun name => textLine (name ++ "\t" ++ scheme.runtimeName name))

inductive Command where
  | analyze (dump : String)
  | report (request : ReportRequest)
  | mangle (names : List String) (scheme : Scheme)
  deriving DecidableEq, Repr

/-- The paths of the files that a command may ask its disk for. -/
def Command.filePaths : Command → List String
  | .analyze dump => [dump]
  | .report request => request.dump :: request.config.toList
  | .mangle .. => []

/-- The paths of the directories that a command may ask its disk for. -/
def Command.directoryPaths : Command → List String
  | .report request => request.runs.map fun argument => (RunArgument.of argument).directory
  | .analyze _ | .mangle .. => []

def Command.run (disk : Disk) (generatedAt : String) : Command → Outcome CommandFailure String
  | .analyze dump => CommandLine.analyze disk dump
  | .report request => CommandLine.report disk generatedAt request
  | .mangle names scheme => .done (runtimeNames scheme names)

end BranchCoverage.CommandLine
