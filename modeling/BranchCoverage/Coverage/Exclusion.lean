import BranchCoverage.Coverage.Target

/-!
# Exclusions

A pattern hides the targets of functions that the compiler made up, and no others.  It is compared
with the fully qualified name and with the name inside the module, and matches if either does.

Exclusions work on a list of targets.  They never reach the counts, so hiding a function cannot
change a rate.
-/

namespace BranchCoverage

/-- A pattern for names of functions. -/
inductive Pattern where
  | exact (name : String)
  | beginning (start : String)
  deriving DecidableEq, Repr, Inhabited

namespace Pattern

def text : Pattern → String
  | exact name => name
  | beginning start => start

/-- Whether the pattern matches every name that begins with its text. -/
def isOpen : Pattern → Bool
  | exact _ => false
  | beginning _ => true

def of (text : String) (isOpen : Bool) : Pattern :=
  if isOpen then beginning text else exact text

/-- The pattern that a user writes on the command line: an asterisk at the end leaves it open. -/
def ofArgument (argument : String) : Pattern :=
  match argument.toList.reverse with
  | '*' :: start => beginning (String.ofList start.reverse)
  | _ => exact argument

def matchesName (pattern : Pattern) (name : String) : Bool :=
  match pattern with
  | exact text => name == text
  | beginning start => name.startsWith start

/-- Whether the pattern matches a function, by its fully qualified name or by its name inside the
module. -/
def matchesFunction (pattern : Pattern) (name : String) : Bool :=
  pattern.matchesName name || pattern.matchesName (Name.functionName name)

end Pattern

def Target.isHidden (patterns : List Pattern) (target : Target) : Bool :=
  target.reason == .compilerGenerated &&
    patterns.any fun pattern => pattern.matchesFunction target.function

def Target.visible (patterns : List Pattern) (targets : List Target) : List Target :=
  targets.filter fun target => !target.isHidden patterns

end BranchCoverage
