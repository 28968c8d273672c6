import BranchCoverage.Text.Blank
import BranchCoverage.Text.Line

/-!
# Runtime definitions

The definitions source defines its functions at the start of a line:

```text
(define MainC-46dispatch (lambda (arg-0)
```

A definition that is indented is nested in another one and is passed over, and so is a form that
defines no plain name, such as `(define (f x) ...)`.  Lines are numbered from one, in the file that
the profiler's line numbers refer to.

The numbers are natural numbers, without a bound.  Line numbers of 32 bits, as markers have them
(`Marker.Field.bound`), are the same numbers in every source of fewer than `2 ^ 32` lines; a longer
source has lines that no marker can name, and is outside what this module describes.
-/

namespace BranchCoverage

open Text

/-- A top-level definition of the runtime source. -/
structure Definition where
  runtimeName : String
  line : Nat
  deriving DecidableEq, Repr, Inhabited

namespace Definition

def mark : List Char := "(define".toList

def isNameChar (c : Char) : Bool :=
  !isBlank c && c ≠ '(' && c ≠ ')'

/-- The name that a line defines: the longest text without blanks and parentheses behind the mark
and at least one blank. -/
def nameOf? (line : List Char) : Option (List Char) :=
  match mark.isPrefixOf? line with
  | some (c :: rest) =>
    if isBlank c then
      match (trimStart rest).takeWhile isNameChar with
      | [] => none
      | name => some name
    else none
  | _ => none

/-- The top-level definitions of a source, each with its line, in order of appearance. -/
def scan (source : String) : List Definition :=
  ((lines source.toList).zipIdx 1).filterMap fun (line, number) =>
    (nameOf? line).map fun name => { runtimeName := String.ofList name, line := number }

end Definition

end BranchCoverage
