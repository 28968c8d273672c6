/-!
# Finding marks in a text

Dump bodies are not parsed structurally: they are searched for fixed marks.  This module holds the
searches, all by recursion on the text.

* `afterFirst? mark text` is the text behind the first occurrence of `mark`.
* `afterEach mark text` lists the text behind every occurrence, in order of appearance.  An
  occurrence is a suffix of the text that starts with the mark, so two occurrences may overlap;
  the marks that the library searches for cannot overlap themselves.
* `findEach find? text` lists what a recogniser finds, one find behind the other.
* `splitAtLast? sep text` cuts the text at the last `sep`.
* `segments sep text` cuts the text at every `sep`, with one more segment than there are cuts.
-/

namespace BranchCoverage.Text

def afterFirst? (mark : List Char) : List Char → Option (List Char)
  | [] => mark.isPrefixOf? []
  | c :: rest =>
    match mark.isPrefixOf? (c :: rest) with
    | some behind => some behind
    | none => afterFirst? mark rest

def contains (mark text : List Char) : Bool :=
  (afterFirst? mark text).isSome

/-- The text behind each occurrence of `mark`, in order of appearance. -/
def afterEach (mark : List Char) : List Char → List (List Char)
  | [] => []
  | c :: rest =>
    match mark.isPrefixOf? (c :: rest) with
    | some behind => behind :: afterEach mark rest
    | none => afterEach mark rest

/-- What `find?` finds in a text behind its first `skip` characters. -/
def findEachFrom {α : Type} (find? : List Char → Option (α × Nat)) : Nat → List Char → List α
  | _, [] => []
  | skip + 1, _ :: rest => findEachFrom find? skip rest
  | 0, c :: rest =>
    match find? (c :: rest) with
    | some (found, width) => found :: findEachFrom find? (width - 1) rest
    | none => findEachFrom find? 0 rest

/-- Everything that `find?` finds in a text, in order of appearance.  `find?` looks at the start of
a text and tells what stands there and how many characters it takes.  The search goes on behind
these, so nothing is found inside another find. -/
def findEach {α : Type} (find? : List Char → Option (α × Nat)) (text : List Char) : List α :=
  findEachFrom find? 0 text

/-- The texts before and behind the last `sep`, when there is one. -/
def splitAtLast? (sep : Char) : List Char → Option (List Char × List Char)
  | [] => none
  | c :: rest =>
    match splitAtLast? sep rest with
    | some (before, behind) => some (c :: before, behind)
    | none => if c = sep then some ([], rest) else none

/-- Put a character in front of the first segment, or start a segment if it is the separator. -/
def addToSegments (sep c : Char) (found : List (List Char)) : List (List Char) :=
  if c = sep then [] :: found else found.modifyHead (c :: ·)

/-- The pieces of a text between its separators.  There is always at least one. -/
def segments (sep : Char) (text : List Char) : List (List Char) :=
  text.foldr (addToSegments sep) [[]]

/-- Joins texts with a text between every two of them. -/
def join (between : List Char) (texts : List (List Char)) : List Char :=
  (texts.intersperse between).flatten

@[simp] theorem segments_nil (sep : Char) : segments sep [] = [[]] := rfl

@[simp] theorem segments_cons (sep c : Char) (text : List Char) :
    segments sep (c :: text) = addToSegments sep c (segments sep text) := rfl

theorem segments_ne_nil (sep : Char) (text : List Char) : segments sep text ≠ [] := by
  induction text with
  | nil => simp
  | cons c rest ih =>
    rw [segments_cons, addToSegments]
    split
    · simp
    · cases hs : segments sep rest with
      | nil => exact absurd hs ih
      | cons first others => simp

end BranchCoverage.Text
