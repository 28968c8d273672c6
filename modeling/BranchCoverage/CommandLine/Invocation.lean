import BranchCoverage.CommandLine.Arguments
import BranchCoverage.CommandLine.Command

/-!
# Invocations

The arguments of the program are options of the program itself, the name of a command, and the
arguments of that command.  `--verbose` may stand on either side of the name, and once on each.

An invocation is carried out by `execute`, a function of the disk, of the time and of the arguments
that says what the program prints and with which status it ends.
-/

namespace BranchCoverage.CommandLine

open RuntimeName

/-! ## The commands and their options -/

def verboseRule : OptionRule :=
  { name := "verbose", letter := some 'v', kind := .flag }

def helpRule : OptionRule :=
  { name := "help", letter := some 'h', kind := .stop .help }

def versionRule : OptionRule :=
  { name := "version", letter := some 'V', kind := .stop .version }

def pathRule (name : String) : OptionRule :=
  { name, kind := .value (fun text => !text.isEmpty) false }

/-- An option with any text, which may be repeated. -/
def textRule (name : String) : OptionRule :=
  { name, kind := .value (fun _ => true) true }

def schemeRule : OptionRule :=
  { name := "mangling", kind := .value (fun text => (Scheme.ofLabel? text).isSome) false }

def styleRule : OptionRule :=
  { name := "style", kind := .value (fun text => (Style.ofLabel? text).isSome) false }

def programRules : ArgumentRules :=
  { options := [verboseRule, helpRule, versionRule] }

def analyzeRules : ArgumentRules :=
  { options := [verboseRule, helpRule, pathRule "dump"] }

def reportRules : ArgumentRules :=
  { options :=
      [verboseRule, helpRule, pathRule "dump", textRule "run", styleRule, textRule "exclude",
       pathRule "config", schemeRule] }

def mangleRules : ArgumentRules :=
  { options := [verboseRule, helpRule, schemeRule], takesOperands := true }

/-! ## Reading an invocation -/

structure Invocation where
  verbose : Bool
  command : Command
  deriving DecidableEq, Repr

def analyzeCommand (items : List Item) : Except Stop Command := do
  return .analyze (← requiredValue "dump" items)

def reportCommand (items : List Item) : Except Stop Command := do
  let dump ← requiredValue "dump" items
  let runs := valuesOf "run" items
  if runs.isEmpty then .error .usage
  else
    return .report
      { dump
        runs
        style := ((valuesOf "style" items).head?.bind Style.ofLabel?).getD .text
        exclude := valuesOf "exclude" items
        config := (valuesOf "config" items).head?
        scheme := (valuesOf "mangling" items).head?.bind Scheme.ofLabel? }

def mangleCommand (items : List Item) : Except Stop Command :=
  let names := operands items
  let scheme := ((valuesOf "mangling" items).head?.bind Scheme.ofLabel?).getD .uniform
  if names.isEmpty then .error .usage else .ok (.mangle names scheme)

/-- The names of the commands, with help among them. -/
def commandNames : List String := ["analyze", "report", "mangle", "help"]

def readCommand (rules : ArgumentRules) (build : List Item → Except Stop Command)
    (arguments : List String) : Except Stop Invocation := do
  let items ← readArguments rules arguments
  return { verbose := hasFlag verboseRule.name items, command := ← build items }

def readNamed (name : String) (arguments : List String) : Except Stop Invocation :=
  match name with
  | "analyze" => readCommand analyzeRules analyzeCommand arguments
  | "report" => readCommand reportRules reportCommand arguments
  | "mangle" => readCommand mangleRules mangleCommand arguments
  | "help" =>
    match arguments with
    | [] => .error .help
    | [topic] => .error (if commandNames.contains topic then .help else .usage)
    | _ => .error .usage
  | _ => .error .usage

def Invocation.read (arguments : List String) : Except Stop Invocation := do
  let own := arguments.takeWhile fun argument => !Word.isPlain argument
  let items ← readArguments programRules own
  match arguments.dropWhile fun argument => !Word.isPlain argument with
  | [] => .error .usage
  | name :: rest =>
    if own.contains "--" then .error .usage
    else do
      let invocation ← readNamed name rest
      return { invocation with
        verbose := invocation.verbose || hasFlag verboseRule.name items }

/-! ## Carrying it out -/

/-- What the program prints, and the status it ends with. -/
structure Exit where
  status : Nat
  output : String := ""
  errors : String := ""
  deriving DecidableEq, Repr

/-- A text in which every line but the first is indented. -/
def indented (width : Nat) (text : String) : String :=
  let gap := List.replicate width ' '
  String.ofList (text.toList.flatMap fun c => if c = '\n' then '\n' :: gap else [c])

def recordLine (record : Record) : String :=
  textLine (record.level.label ++ " " ++ indented 4 record.text)

def isShown (verbose : Bool) (record : Record) : Bool :=
  verbose || record.level = .warning

/-- The explanations below the outermost one.  A single one is not numbered. -/
def causes : List String → String
  | [] => ""
  | [cause] => "\nCaused by:\n    " ++ textLine (indented 4 cause)
  | several =>
    "\nCaused by:\n" ++ String.join (several.mapIdx fun index cause =>
      Report.padLeft 5 (toString index) ++ ": " ++ textLine (indented 7 cause))

def CommandFailure.text (failure : CommandFailure) : String :=
  match failure.chain with
  | [] => ""
  | outermost :: others => textLine ("Error: " ++ outermost) ++ causes others

def versionText : String :=
  textLine "casecov 0.1.0"

def usageText : String :=
  String.join <| List.map textLine
    ["casecov: pragmatic branch coverage from case-tree dumps and runtime profiles",
     "",
     "Usage: casecov [OPTIONS] <COMMAND>",
     "",
     "Commands:",
     "  analyze --dump <DUMP>",
     "          Classify the branches of a case-tree dump without any runtime data",
     "  report --dump <DUMP> --run <RUN>... [--style text|json] [--exclude <PATTERN>]...",
     "         [--config <CONFIG>] [--mangling uniform|namespace-hyphen]",
     "          Compute branch coverage across one or more test runs",
     "  mangle [--mangling uniform|namespace-hyphen] <NAME>...",
     "          Print the runtime identifier of each fully-qualified name",
     "  help    Print this message",
     "",
     "Options:",
     "  -v, --verbose  Log debug details",
     "  -h, --help     Print help",
     "  -V, --version  Print version"]

/-- What the program prints when it does not get to a command. -/
def Stop.exit : Stop → Exit
  | .usage => { status := 2, errors := "error: the arguments are not understood\n\n" ++ usageText }
  | .help => { status := 0, output := usageText }
  | .version => { status := 0, output := versionText }

/-- What the program prints of the outcome of a command. -/
def Exit.ofOutcome (verbose : Bool) (outcome : Outcome CommandFailure String) : Exit :=
  let shown := String.join ((outcome.log.filter (isShown verbose)).map recordLine)
  match outcome.result with
  | .ok output => { status := 0, output, errors := shown }
  | .error failure => { status := 1, errors := shown ++ failure.text }

/-- Carries out an invocation on a disk at a given time. -/
def execute (disk : Disk) (generatedAt : String) (arguments : List String) : Exit :=
  match Invocation.read arguments with
  | .error stop => stop.exit
  | .ok invocation => .ofOutcome invocation.verbose (invocation.command.run disk generatedAt)

end BranchCoverage.CommandLine
