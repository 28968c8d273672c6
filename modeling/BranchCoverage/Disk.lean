import BranchCoverage.Artifact.Detection
import BranchCoverage.CaseTree.Analysis
import BranchCoverage.Config

/-!
# Reading from a disk

A disk is what it answers to two questions: what is in a file, and which files are in a directory.
Everything that a command does with files is a function of these answers, so a command is a
function of a disk, and whoever runs it decides which disk that is.
-/

namespace BranchCoverage

structure File where
  name : String
  content : List UInt8
  deriving DecidableEq, Repr

structure Disk where
  fileAt : String → Except IoFailure (List UInt8)
  /-- The files in the directory at a path, in whatever order, without its subdirectories. -/
  filesIn : String → Except IoFailure (List File)

namespace Disk

/-- The disk that gives the answers that were got from another one before.  At any other path it has
nothing. -/
def ofAnswers (files : List (String × Except IoFailure (List UInt8)))
    (directories : List (String × Except IoFailure (List File))) : Disk :=
  { fileAt := fun path => (files.lookup path).getD (.error .notFound)
    filesIn := fun path => (directories.lookup path).getD (.error .notFound) }

def textOf (content : List UInt8) : Except IoFailure String :=
  match Text.Utf8.decode? content with
  | some text => .ok (String.ofList text)
  | none => .error .malformedText

/-- The failure to read an artifact: an artifact that is not there is missing, and any other
failure is the disk's. -/
def absentOrIo (path : String) : IoFailure → Failure
  | .notFound => .absent path
  | cause => .io cause

def loadConfig (disk : Disk) (path : String) : Except Failure Config := do
  let text ← (disk.fileAt path >>= textOf).mapError Failure.io
  Config.ofText text

/-- The analysis of the dump with a path and a content.  A file that is another kind of artifact is
refused, instead of being read as a dump without functions. -/
def analyzeFile (path : String) (content : List UInt8) : Outcome Failure CaseTree.Analysis :=
  match textOf content with
  | .error cause => .fail (.io cause)
  | .ok text =>
    match Artifact.detect? path content with
    | none | some .dump => CaseTree.Analysis.ofDump text
    | some kind => .fail (.notADump path kind)

def loadDump (disk : Disk) (path : String) : Outcome Failure CaseTree.Analysis := do
  let content ← .ofResult ((disk.fileAt path).mapError (absentOrIo path))
  analyzeFile path content

end Disk

end BranchCoverage
