import BranchCoverage.Profile.Definition
import BranchCoverage.Proofs.Text.Search
import Mathlib.Data.List.Basic
import Mathlib.Data.List.TakeWhile

/-!
# Lines that open a definition

A definition is recognised by its first line alone.  `Definition.Opens` says what such a line looks
like, without saying how it is read: the mark in the first column, blanks, the name, and behind the
name the end of the line or a character that no name goes on with.  Reading finds exactly that
(`nameOf?_eq_some_iff`): a name that is not empty and holds neither blanks nor parentheses, on a
line that opens a definition of it.

The definitions of a source are those of its lines, each under the number of its line.  What stands
in front of a line has no effect on its definition but for this number (`ofLines_append`).
-/

namespace BranchCoverage.Definition

open Text

/-- A line opens a definition of a name: behind the mark, in the first column, there are blanks, the
name, and then the end of the line, a blank or a parenthesis. -/
def Opens (name line : List Char) : Prop :=
  ∃ blanks rest, line = mark ++ (blanks ++ (name ++ rest)) ∧
    blanks ≠ [] ∧ isBlankText blanks = true ∧
    ∀ c ∈ rest.head?, isBlank c = true ∨ c = '(' ∨ c = ')'

section Line

variable {name line rest : List Char} {c : Char}

lemma isNameChar_iff : isNameChar c = true ↔ isBlank c = false ∧ c ≠ '(' ∧ c ≠ ')' := by
  simp [isNameChar, and_assoc]

lemma isNameChar_eq_false_iff : isNameChar c = false ↔ isBlank c = true ∨ c = '(' ∨ c = ')' := by
  rw [← Bool.not_eq_true, isNameChar]
  cases isBlank c <;> simp [or_iff_not_imp_left]

/-- What is read is the longest text of name characters behind the mark and its blanks. -/
lemma nameOf?_mark_append (blank : isBlank c = true) :
    nameOf? (mark ++ c :: rest) = some name ↔
      name ≠ [] ∧ (trimStart rest).takeWhile isNameChar = name := by
  unfold nameOf?
  rw [isPrefixOf?_append_self]
  simp only [blank, if_true]
  cases word : (trimStart rest).takeWhile isNameChar with
  | nil => simp [eq_comm]
  | cons first others =>
    constructor
    · intro h
      obtain rfl := Option.some.inj h
      exact ⟨List.cons_ne_nil first others, rfl⟩
    · rintro ⟨-, rfl⟩
      rfl

lemma exists_mark_of_nameOf? (h : nameOf? line = some name) :
    ∃ c rest, isBlank c = true ∧ line = mark ++ c :: rest := by
  unfold nameOf? at h
  split at h
  · rename_i c rest found
    by_cases blank : isBlank c = true
    · exact ⟨c, rest, blank, (List.isPrefixOf?_eq_some_iff_append_eq.1 found).symm⟩
    · rw [if_neg blank] at h
      cases h
  · cases h

/-- **How a definition line is read.**  A line defines a name exactly if it opens a definition of
it and the name is a text of name characters that is not empty. -/
theorem nameOf?_eq_some_iff :
    nameOf? line = some name ↔
      name ≠ [] ∧ (∀ c ∈ name, isNameChar c = true) ∧ Opens name line := by
  constructor
  · intro h
    obtain ⟨c, rest, blank, rfl⟩ := exists_mark_of_nameOf? h
    obtain ⟨nonempty, rfl⟩ := (nameOf?_mark_append blank).1 h
    refine ⟨nonempty, fun c hc => List.mem_takeWhile_imp hc, c :: rest.takeWhile isBlank,
      (trimStart rest).dropWhile isNameChar, ?_, List.cons_ne_nil _ _, ?_, ?_⟩
    · rw [List.takeWhile_append_dropWhile, List.cons_append]
      unfold trimStart
      rw [List.takeWhile_append_dropWhile]
    · show (c :: rest.takeWhile isBlank).all isBlank = true
      rw [List.all_cons, blank, Bool.true_and, List.all_eq_true]
      exact fun c hc => List.mem_takeWhile_imp hc
    · intro c hc
      have stops := List.head?_dropWhile_not isNameChar (trimStart rest)
      rw [Option.mem_def.1 hc] at stops
      exact isNameChar_eq_false_iff.1 stops
  · rintro ⟨nonempty, visible, _ | ⟨c, blanks⟩, rest, rfl, spaced, blank, ends⟩
    · exact absurd rfl spaced
    · obtain ⟨hc, hblanks⟩ : isBlank c = true ∧ isBlankText blanks = true := by
        simpa [isBlankText] using blank
      rw [List.cons_append]
      have first : ∀ c ∈ (name ++ rest).head?, isBlank c = false := by
        obtain ⟨c, others, rfl⟩ := List.exists_cons_of_ne_nil nonempty
        have here := visible c List.mem_cons_self
        simp_all [isNameChar]
      refine (nameOf?_mark_append hc).2 ⟨nonempty, ?_⟩
      rw [trimStart_append_of_isBlankText hblanks, trimStart_of_head? first]
      exact takeWhile_append_of_stop visible fun c hc => isNameChar_eq_false_iff.2 (ends c hc)

end Line

/-! ## The definitions of numbered lines -/

/-- The definitions on lines of which the first has a number. -/
def ofLines (number : Nat) (lines : List (List Char)) : List Definition :=
  (lines.zipIdx number).filterMap fun (line, number) =>
    (nameOf? line).map fun name => { runtimeName := String.ofList name, line := number }

section Lines

variable {name line : List Char} {before after : List (List Char)} {number : Nat}

lemma scan_eq_ofLines (source : String) : scan source = ofLines 1 (lines source.toList) := rfl

lemma ofLines_append (number : Nat) (before after : List (List Char)) :
    ofLines number (before ++ after) =
      ofLines number before ++ ofLines (number + before.length) after := by
  unfold ofLines
  rw [List.zipIdx_append, List.filterMap_append]

lemma ofLines_cons (h : nameOf? line = some name) :
    ofLines number (line :: after) =
      { runtimeName := String.ofList name, line := number } :: ofLines (number + 1) after := by
  unfold ofLines
  simp [h]

/-- Every definition is that of a line. -/
lemma exists_line_of_mem_ofLines {definition : Definition}
    (h : definition ∈ ofLines number before) :
    ∃ line ∈ before, nameOf? line = some definition.runtimeName.toList := by
  obtain ⟨⟨line, number⟩, numbered, read⟩ := List.mem_filterMap.1 h
  obtain ⟨name, named, rfl⟩ := Option.map_eq_some_iff.1 read
  refine ⟨line, List.fst_mem_of_mem_zipIdx numbered, ?_⟩
  rw [named, String.toList_ofList]

end Lines

end BranchCoverage.Definition
