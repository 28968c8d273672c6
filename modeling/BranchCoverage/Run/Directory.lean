import BranchCoverage.Disk
import BranchCoverage.Run.Hits

/-!
# Run directories

A profiled execution leaves its artifacts in a directory.  The line numbers of an annotation refer
to one definitions source only, so the two are paired by name: the definitions of `main.ss.html` are
in `main.ss`, the name without its last extension.

A directory may hold other files, blank annotations, annotations without definitions and definitions
without annotations.  They are passed over, and logged.  What must not be is that nothing is left,
or more than one pair: profiles of different programs cannot be merged into one run.

Files are taken in the order of their names, so that the order in which a disk lists them is of no
consequence.  Where two annotations have the same definitions, the first one gets them.
-/

namespace BranchCoverage.Run

open Artifact

/-- A file that was recognised, as text. -/
structure TextFile where
  name : String
  /-- Its text, with a replacement character for each part that is no text. -/
  text : String
  deriving DecidableEq, Repr

/-- Annotations and the definitions that they refer to. -/
structure ArtifactPair where
  annotations : TextFile
  definitions : TextFile
  deriving DecidableEq, Repr

/-- How annotations and definitions were paired. -/
structure Pairing where
  pairs : List ArtifactPair
  /-- The annotations that found no definitions, in order. -/
  unpaired : List TextFile
  /-- The definitions that no annotations asked for, in order. -/
  unused : List TextFile
  deriving DecidableEq, Repr

/-- Pairs annotations, one after the other, with the definitions that are left. -/
def Pairing.of : List TextFile → List TextFile → Pairing
  | [], definitions => ⟨[], [], definitions⟩
  | file :: rest, definitions =>
    match definitions.find? fun source => source.name = Path.stem file.name with
    | some source =>
      let paired := of rest (definitions.filter fun other => other.name ≠ source.name)
      { paired with pairs := ⟨file, source⟩ :: paired.pairs }
    | none =>
      let paired := of rest definitions
      { paired with unpaired := file :: paired.unpaired }

/-- A directory of a run, with its files in the order of their names. -/
structure Directory where
  path : String
  files : List File
  deriving DecidableEq, Repr

namespace Directory

/-- The directory at a path with given files, in whatever order they are listed. -/
def ofListing (path : String) (files : List File) : Directory :=
  ⟨path, files.mergeSort fun a b => a.name ≤ b.name⟩

def pathOf (directory : Directory) (name : String) : String :=
  Path.inDirectory directory.path name

def kindOf (directory : Directory) (file : File) : Option Kind :=
  detect? (directory.pathOf file.name) file.content

def filesOf (directory : Directory) (kind : Kind) : List TextFile :=
  (directory.files.filter fun file => directory.kindOf file = some kind).map fun file =>
    { name := file.name, text := String.ofList (Text.Utf8.decodeLossy file.content) }

def annotations (directory : Directory) : List TextFile :=
  (directory.filesOf .annotations).filter fun file => !Text.isBlankText file.text.toList

/-- The pairs of the directory, and what is left over. -/
def pairing (directory : Directory) : Pairing :=
  .of directory.annotations (directory.filesOf .definitions)

/-! ## The log -/

/-- Whether a file is of no use to a run. -/
def isStray (directory : Directory) (file : File) : Bool :=
  match directory.kindOf file with
  | some .annotations | some .definitions => false
  | _ => true

def strayRecord (directory : Directory) (run : String) (file : File) : Record :=
  { level := .debug
    text := "run '" ++ run ++ "': skipping " ++ directory.pathOf file.name }

def unpairedRecord (directory : Directory) (run : String) (file : TextFile) : Record :=
  { level := .warning
    text := "run '" ++ run ++ "': ignoring " ++ directory.pathOf file.name
      ++ ", no definitions source " ++ directory.pathOf (Path.stem file.name) }

def unusedRecord (directory : Directory) (run : String) (file : TextFile) : Record :=
  { level := .warning
    text := "run '" ++ run ++ "': ignoring definitions " ++ directory.pathOf file.name
      ++ " without annotations" }

/-- What is logged about the files of a directory: first the stray ones; then, when there are
annotations to pair at all, what could not be paired. -/
def records (directory : Directory) (run : String) : List Record :=
  (directory.files.filter directory.isStray).map (directory.strayRecord run) ++
    if directory.annotations.isEmpty then []
    else
      directory.pairing.unpaired.map (directory.unpairedRecord run) ++
        directory.pairing.unused.map (directory.unusedRecord run)

/-! ## The artifacts -/

def artifacts (directory : Directory) (run : String) : Except Failure Artifacts :=
  if directory.annotations.isEmpty then .error (.noAnnotations directory.path)
  else
    match directory.pairing.pairs with
    | [] => .error (.noDefinitions directory.path)
    | [pair] =>
      .ok { name := run
            annotated := pair.annotations.text
            definitions := pair.definitions.text }
    | pairs =>
      .error (.severalPrograms run (pairs.map fun pair => directory.pathOf pair.annotations.name))

/-- The artifacts of the run in a directory, with what is logged about its files. -/
def load (directory : Directory) (run : String) : Outcome Failure Artifacts :=
  ⟨directory.records run, directory.artifacts run⟩

end Directory

def Artifacts.load (disk : Disk) (run path : String) : Outcome Failure Artifacts := do
  let files ← .ofResult ((disk.filesIn path).mapError (Disk.absentOrIo path))
  (Directory.ofListing path files).load run

end BranchCoverage.Run
