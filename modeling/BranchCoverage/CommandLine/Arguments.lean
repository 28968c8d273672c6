/-!
# Arguments

Arguments are read by rules.  An `OptionRule` says how an option is written and what it takes; a
list of arguments is read from left to right by one step per argument, and the first argument that
breaks a rule ends the reading.  So does the first one that asks for something other than the
command, such as its help, and what stands behind it does not matter any more.

* An option with a value takes it behind an equals sign or as the next argument, which must not
  begin with a hyphen then, unless it is the hyphen alone.
* A flag takes no value.  Short flags may be written behind one hyphen.
* Only an option that is made for it may be repeated.
* Behind `--`, and wherever no option stands, are operands, if the command takes any.
-/

namespace BranchCoverage.CommandLine

/-- Why the reading of arguments ended early. -/
inductive Stop where
  | usage
  | help
  | version
  deriving DecidableEq, Repr

/-- What an option takes and does. -/
inductive OptionKind where
  | stop (reason : Stop)
  | flag
  /-- Takes a value that `accepts` accepts. -/
  | value (accepts : String → Bool) (repeatable : Bool)

/-- An option. -/
structure OptionRule where
  name : String
  /-- How it is written behind one hyphen, if it can be. -/
  letter : Option Char := none
  kind : OptionKind

/-- What arguments a command takes. -/
structure ArgumentRules where
  options : List OptionRule
  takesOperands : Bool := false

/-- What the arguments say. -/
inductive Item where
  | flag (name : String)
  | value (name text : String)
  | operand (text : String)
  deriving DecidableEq, Repr

/-- The form of one argument. -/
inductive Word where
  | escape
  /-- An option behind two hyphens, perhaps with a value behind an equals sign. -/
  | long (name : String) (attached : Option String)
  | short (letters : List Char)
  | plain (text : String)
  deriving DecidableEq, Repr

/-- The form of an argument. -/
def Word.of (argument : String) : Word :=
  match argument.toList with
  | ['-', '-'] => .escape
  | '-' :: '-' :: rest =>
    let attached := match rest.dropWhile (· ≠ '=') with
      | [] => none
      | _ :: text => some (String.ofList text)
    .long (String.ofList (rest.takeWhile (· ≠ '='))) attached
  | '-' :: first :: others => .short (first :: others)
  | _ => .plain argument

/-- Whether an argument is no option. -/
def Word.isPlain (argument : String) : Bool :=
  match Word.of argument with
  | .plain _ => true
  | _ => false

/-- How far arguments have been read. -/
structure Reading where
  /-- What they said, the latest item first. -/
  items : List Item := []
  /-- The option that needs the next argument as its value. -/
  awaiting : Option OptionRule := none
  /-- Whether `--` has been read. -/
  escaped : Bool := false

namespace Reading

/-- Whether an option has been read already. -/
def hasSeen (reading : Reading) (name : String) : Bool :=
  reading.items.any fun item =>
    match item with
    | .flag seen | .value seen _ => seen = name
    | .operand _ => false

/-- Adds an operand, if there may be one. -/
def addOperand (rules : ArgumentRules) (reading : Reading) (text : String) : Except Stop Reading :=
  if rules.takesOperands then .ok { reading with items := .operand text :: reading.items }
  else .error .usage

/-- Adds an option without a value. -/
def addFlag (reading : Reading) (rule : OptionRule) : Except Stop Reading :=
  match rule.kind with
  | .stop reason => .error reason
  | .flag =>
    if reading.hasSeen rule.name then .error .usage
    else .ok { reading with items := .flag rule.name :: reading.items }
  | .value .. => .error .usage

/-- Adds an option with its value. -/
def addValue (reading : Reading) (rule : OptionRule) (text : String) : Except Stop Reading :=
  match rule.kind with
  | .value accepts repeatable =>
    if !accepts text || (!repeatable && reading.hasSeen rule.name) then .error .usage
    else .ok { reading with items := .value rule.name text :: reading.items, awaiting := none }
  | _ => .error .usage

/-- Adds the option behind one letter. -/
def addLetter (rules : ArgumentRules) (reading : Reading) (letter : Char) : Except Stop Reading :=
  match rules.options.find? fun rule => rule.letter = some letter with
  | some rule => reading.addFlag rule
  | none => .error .usage

/-- Adds the option behind two hyphens. -/
def addLong (rules : ArgumentRules) (reading : Reading) (name : String)
    (attached : Option String) : Except Stop Reading :=
  match rules.options.find? fun rule => rule.name = name with
  | none => .error .usage
  | some rule =>
    match rule.kind, attached with
    | .value .., none => .ok { reading with awaiting := some rule }
    | .value .., some text => reading.addValue rule text
    | _, none => reading.addFlag rule
    | _, some _ => .error .usage

def next (rules : ArgumentRules) (reading : Reading) (argument : String) : Except Stop Reading :=
  if reading.escaped then reading.addOperand rules argument
  else
    match Word.of argument, reading.awaiting with
    | .plain text, some rule => reading.addValue rule text
    | _, some _ => .error .usage
    | .plain text, none => reading.addOperand rules text
    | .escape, none => .ok { reading with escaped := true }
    | .short letters, none => letters.foldlM (addLetter rules) reading
    | .long name attached, none => reading.addLong rules name attached

end Reading

def readArguments (rules : ArgumentRules) (arguments : List String) : Except Stop (List Item) := do
  let reading ← arguments.foldlM (Reading.next rules) {}
  if reading.awaiting.isSome then .error .usage else .ok reading.items.reverse

def hasFlag (name : String) (items : List Item) : Bool :=
  items.contains (.flag name)

def valuesOf (name : String) (items : List Item) : List String :=
  items.filterMap fun item =>
    match item with
    | .value option text => if option = name then some text else none
    | _ => none

def operands (items : List Item) : List String :=
  items.filterMap fun item =>
    match item with
    | .operand text => some text
    | _ => none

/-- The value of an option that must be there. -/
def requiredValue (name : String) (items : List Item) : Except Stop String :=
  match valuesOf name items with
  | text :: _ => .ok text
  | [] => .error .usage

end BranchCoverage.CommandLine
