import BranchCoverage.Text.Search

/-!
# Fully qualified names

A fully qualified name is a module name and a function name with a dot between them.  The function
name is what stands behind the *last* dot, so `Data.List.sortBy` is `sortBy` in `Data.List`.  A
name without a dot lives in the module of the empty name.

The compiler invents names of its own for code that it lifts or shares, and for primitives.  They
are recognised from the two parts alone: see `isGenerated`.
-/

namespace BranchCoverage.Name

/-- The module name and the function name of a fully qualified name. -/
def split (name : String) : String × String :=
  match Text.splitAtLast? '.' name.toList with
  | some (moduleName, functionName) => (String.ofList moduleName, String.ofList functionName)
  | none => ("", name)

/-- The part of a name before its last dot, which is empty when there is no dot. -/
def moduleName (name : String) : String :=
  (split name).1

/-- The part of a name behind its last dot, which is the whole name when there is no dot. -/
def functionName (name : String) : String :=
  (split name).2

/-- Whether the compiler made a function up: `{csegen:12}` and other names in braces,
primitives, and everything in the module `_builtin` or below it. -/
def isGenerated (moduleName functionName : String) : Bool :=
  functionName.startsWith "\x7b" || functionName.startsWith "prim__"
    || moduleName == "_builtin" || moduleName.startsWith "_builtin."

end BranchCoverage.Name
