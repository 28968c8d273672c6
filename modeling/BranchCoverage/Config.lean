import BranchCoverage.Coverage.Exclusion
import BranchCoverage.Failure
import BranchCoverage.Json.Value

/-!
# Configuration

A configuration chooses the scheme of runtime names and the patterns that hide targets.  It is a
JSON object with the members `exclude`, `mangling` and `builtin_exclusions`, all of them optional;
other members are passed over, whatever they hold, but none of the three may occur twice.  The same
three may also stand in an array, in this order, and the ones behind its end have their defaults.

A pattern is an object with the members `pattern` and, optionally, `prefix`, or an array of the two.

Unless the configuration says otherwise, the names that the compiler is known to make up are hidden
before any pattern of the user's.
-/

namespace BranchCoverage

open RuntimeName

structure Config where
  exclude : List Pattern := []
  scheme : Scheme := .uniform
  /-- Whether the names that the compiler is known to make up are hidden. -/
  builtinExclusions : Bool := true
  deriving DecidableEq, Repr, Inhabited

namespace Config

open Json

/-- What the names that the compiler is known to make up begin with. -/
def builtinBeginnings : List String :=
  ["\x7bcsegen", "\x7beta", "prim__", "_builtin."]

/-- The patterns that are in force: the built-in ones first, if they are wanted. -/
def exclusions (config : Config) : List Pattern :=
  (if config.builtinExclusions then builtinBeginnings.map .beginning else []) ++ config.exclude

/-- The value of a member that may be left out, and must not be there twice. -/
def member? (key : String) (members : List (Option String × Value)) : Option (Option Value) :=
  match members.filter fun entry => entry.1 = some key with
  | [] => some none
  | [(_, value)] => some (some value)
  | _ => none

def hasReadableKeys (members : List (Option String × Value)) : Bool :=
  members.all fun entry => entry.1.isSome

/-- Reads a value that may be absent, which stands for `default`. -/
def orDefault {α : Type} (default : α) (read : Value → Option α) : Option Value → Option α
  | none => some default
  | some value => read value

def readBool : Value → Option Bool
  | .bool value => some value
  | _ => none

def readText : Value → Option String
  | .string text => text
  | _ => none

/-- A scheme: its word, or an object with its word as the only key and nothing as the value. -/
def readScheme : Value → Option Scheme
  | .string (some word) => Scheme.ofLabel? word
  | .object [(some word, .null)] => Scheme.ofLabel? word
  | _ => none

def readPattern : Value → Option Pattern
  | .object members => do
    if !hasReadableKeys members then none
    else
      let text ← member? "pattern" members
      let isOpen ← member? "prefix" members
      return .of (← readText (← text)) (← orDefault false readBool isOpen)
  | .array [text] => (readText text).map .exact
  | .array [text, isOpen] => return .of (← readText text) (← readBool isOpen)
  | _ => none

def readPatterns : Value → Option (List Pattern)
  | .array items => items.mapM readPattern
  | _ => none

/-- The configuration with the three given values, each of which may be absent. -/
def ofValues (exclude scheme builtinExclusions : Option Value) : Option Config :=
  return {
    exclude := ← orDefault [] readPatterns exclude
    scheme := ← orDefault .uniform readScheme scheme
    builtinExclusions := ← orDefault true readBool builtinExclusions }

def ofValue : Value → Option Config
  | .object members => do
    if !hasReadableKeys members then none
    else
      ofValues (← member? "exclude" members) (← member? "mangling" members)
        (← member? "builtin_exclusions" members)
  | .array [] => some {}
  | .array [exclude] => ofValues (some exclude) none none
  | .array [exclude, scheme] => ofValues (some exclude) (some scheme) none
  | .array [exclude, scheme, builtin] => ofValues (some exclude) (some scheme) (some builtin)
  | _ => none

def ofText (text : String) : Except Failure Config :=
  match Value.ofText? text >>= ofValue with
  | some config => .ok config
  | none => .error .malformedConfig

/-- A configuration with the choices made on the command line: they override the scheme, and add
patterns behind those of the configuration. -/
def override (config : Config) (scheme : Option Scheme) (exclude : List String) : Config :=
  { config with
    scheme := scheme.getD config.scheme
    exclude := config.exclude ++ exclude.map Pattern.ofArgument }

end Config

end BranchCoverage
