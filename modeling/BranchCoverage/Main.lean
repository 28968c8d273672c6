import BranchCoverage.CommandLine.Invocation
import BranchCoverage.Report.Timestamp
import Std.Time.DateTime.Timestamp

/-!
# The program

The program reads from the disk what its command may ask for, looks at the clock, and prints what
`CommandLine.execute` says.  Nothing is decided here.
-/

namespace BranchCoverage.Program

open CommandLine

/-- What the operating system said, as a cause. -/
def ioFailure (failure : IO.Error) : IoFailure :=
  match failure with
  | .noFileOrDirectory .. => .notFound
  | .inappropriateType _ code _ | .otherError code _ | .invalidArgument _ code _ =>
    if code = 20 then .notDirectory
    else if code = 21 then .isDirectory
    else if code = 36 then .nameTooLong
    else .system (toString failure)
  | _ => .system (toString failure)

/-- Asks the disk at a path that a file name could have. -/
def ask {α : Type} (path : String) (question : IO α) : IO (String × Except IoFailure α) := do
  if path.isEmpty then return (path, .error .notFound)
  else if path.contains '\x00' then return (path, .error .nulInName)
  else
    match ← question.toBaseIO with
    | .ok value => return (path, .ok value)
    | .error failure => return (path, .error (ioFailure failure))

def fileAt (path : String) : IO (String × Except IoFailure (List UInt8)) :=
  ask path do
    let place := (← IO.currentDir) / path
    if ← place.isDir then throw (.inappropriateType none 21 "is a directory")
    else return (← IO.FS.readBinFile place).toList

def filesIn (path : String) : IO (String × Except IoFailure (List File)) :=
  ask path do
    let entries ← ((← IO.currentDir) / path).readDir
    let files ← entries.toList.filterMapM fun entry => do
      match (← entry.path.metadata.toBaseIO) with
      | .ok metadata =>
        if metadata.type == .file then
          return some ⟨entry.fileName, (← IO.FS.readBinFile entry.path).toList⟩
        else return none
      | .error _ => return none
    return files

def diskFor (command : Command) : IO Disk := do
  return .ofAnswers (← command.filePaths.mapM fileAt) (← command.directoryPaths.mapM filesIn)

/-- What the disk answers to the command that arguments ask for, if they ask for one. -/
def diskForArguments (arguments : List String) : IO Disk :=
  match Invocation.read arguments with
  | .ok invocation => diskFor invocation.command
  | .error _ => return .ofAnswers [] []

def now : IO String := do
  let time ← Std.Time.Timestamp.now
  return timestampText time.val.second.val.toNat time.val.nano.val.toNat

end BranchCoverage.Program

/-- Prints what the arguments ask for. -/
def main (arguments : List String) : IO UInt32 := do
  let disk ← BranchCoverage.Program.diskForArguments arguments
  let exit := BranchCoverage.CommandLine.execute disk (← BranchCoverage.Program.now) arguments
  (← IO.getStderr).putStr exit.errors
  (← IO.getStdout).putStr exit.output
  return exit.status.toUInt32
