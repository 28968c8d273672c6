import BranchCoverage.CaseTree.Dump
import BranchCoverage.Text.Digit
import BranchCoverage.Text.Search

/-!
# Profiler markers

The profiler wraps every expression of the annotated source in markup that carries a title:

```text
<span class=pc1 title="line 3 char 5 count 2">(f x)</span>
```

Nothing else of the markup matters.  A *title* is the text between the quotes of an attribute whose
value begins with `line`; an attribute that is never closed is none.  A title gives a marker when it
names all three of `line`, `char` and `count` with a number, in any order and among anything else.
Where it names one of them several times, the last naming counts, and a naming whose number cannot
be taken (in digits that are not ASCII, or too large) takes back an earlier one.
-/

namespace BranchCoverage

open Text

structure Marker where
  line : Nat
  column : Nat
  count : Nat
  deriving DecidableEq, Repr, Inhabited

namespace Marker

def isExecuted (marker : Marker) : Bool :=
  0 < marker.count

/-! ## Titles -/

/-- What an attribute with a title begins with. -/
def titleMark : List Char := "title=\"line".toList

/-- The part of `titleMark` that is in front of the title. -/
def titleOpening : List Char := "title=\"".toList

/-- The text of an attribute, up to its closing quote, and the text behind that quote. -/
def closed? (text : List Char) : Option (List Char × List Char) :=
  match text.dropWhile (· ≠ '"') with
  | [] => none
  | _ :: rest => some (text.takeWhile (· ≠ '"'), rest)

/-- The title of an attribute at the start of a text, and the length of the attribute from the
beginning of `titleOpening` to the closing quote. -/
def titleAt? (text : List Char) : Option (List Char × Nat) :=
  if titleMark.isPrefixOf text then
    (closed? (text.drop titleOpening.length)).map fun (title, _) =>
      (title, titleOpening.length + title.length + 1)
  else none

/-- The texts of all titles, in order of appearance.  No title begins inside another. -/
def titles (text : List Char) : List (List Char) :=
  findEach titleAt? text

/-! ## Fields -/

/-- A part of a marker that a title can name. -/
inductive Field where
  | line
  | column
  | count
  deriving DecidableEq, Repr

namespace Field

def all : List Field := [line, column, count]

/-- What names a field; its number stands directly behind. -/
def mark : Field → List Char
  | line => "line ".toList
  | column => "char ".toList
  | count => "count ".toList

/-- What the number of a field has to stay below: lines and columns have 32 bits, counts have
64. -/
def bound : Field → Nat
  | line | column => 4294967296
  | count => 18446744073709551616

/-- The digits of a naming of this field at the start of a text. -/
def digitsAt? (field : Field) (text : List Char) : Option (List Char) :=
  match (field.mark.isPrefixOf? text).map (·.takeWhile isDecimalDigit) with
  | some (digit :: digits) => some (digit :: digits)
  | _ => none

end Field

/-- The field that the start of a text names and the digits of its number, and the length of the
two together. -/
def namingAt? (text : List Char) : Option ((Field × List Char) × Nat) :=
  Field.all.findSome? fun field => (field.digitsAt? text).map fun digits =>
    ((field, digits), field.mark.length + digits.length)

/-- All namings in a title, in order of appearance. -/
def namings (title : List Char) : List (Field × List Char) :=
  findEach namingAt? title

/-- The number that a list of namings gives a field: that of the last naming, if it can be
taken. -/
def valueOf (field : Field) (found : List (Field × List Char)) : Option Nat :=
  match (found.filter fun naming => naming.1 = field).getLast? with
  | some (_, digits) => readNaturalBelow field.bound digits
  | none => none

/-- The marker of a title, if the title names every field. -/
def ofTitle? (title : List Char) : Option Marker :=
  let found := namings title
  match valueOf .line found, valueOf .column found, valueOf .count found with
  | some line, some column, some count => some { line, column, count }
  | _, _, _ => none

/-- The markers of an annotated source, and how many titles gave one. -/
def scan (annotated : String) : List Marker × Tally :=
  let found := titles annotated.toList
  let markers := found.filterMap ofTitle?
  (markers, ⟨markers.length, found.length - markers.length⟩)

end Marker

end BranchCoverage
