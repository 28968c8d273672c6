import BranchCoverage.CaseTree.Analysis
import BranchCoverage.Proofs.CaseTree.Scan
import BranchCoverage.Proofs.Text.Lines
import Mathlib.Data.List.Perm.Basic

/-!
# A dump is read line by line

No line of a dump has an effect on how another one is read.  The law behind this is that reading
turns texts put together at a line feed into lists put together (`readDump_append`): the functions
in front of the line feed come first, those behind it follow, and the tallies are added.  Nothing is
lost on the way, because every line that is not blank gives a function or is counted as skipped
(`parsed_add_skipped`).

Three things that happen to dumps follow from it.

* **Lines that give no function** may stand between the others, in any number and at any place
  (`Padded`).  They leave no trace but in the number of skipped lines (`readAlike_padded`).
* **Carriage returns** in front of the line feeds do not show at all (`readDump_crlf`).
* **Another order of the lines** gives the same functions in another order, and a summary only
  counts them (`summary_eq_of_perm`).

The last line of a text may be without a line feed, and a carriage return at its end is then part of
it.  Lines are therefore inserted in front of the last one and not behind it, and a text whose lines
are permuted is `terminated`.
-/

namespace BranchCoverage

open Text

/-- The tally of two texts together. -/
def Tally.add (a b : Tally) : Tally :=
  ⟨a.parsed + b.parsed, a.skipped + b.skipped⟩

namespace CaseTree

/-! ## Lines that give no function -/

section Lines

variable {line : List Char}

/-- A line gives no function, because it is blank or because it cannot be read. -/
def Ignored (line : List Char) : Prop :=
  isBlankText line = true ∨ Function.ofLine? line = none

/-- A blank line has no separator. -/
lemma ofLine?_of_isBlankText (h : isBlankText line = true) : Function.ofLine? line = none := by
  rw [Function.ofLine?, nameAndBody?_eq_none (notMem_of_isBlankText h)]

lemma Ignored.ofLine?_eq_none (h : Ignored line) : Function.ofLine? line = none :=
  h.elim ofLine?_of_isBlankText id

/-! ## The functions and the tally of a text -/

/-- How many of the lines give a function, and how many give none. -/
def tallyOf (lines : List (List Char)) : Tally :=
  ⟨lines.countP fun line => (Function.ofLine? line).isSome,
    lines.countP fun line => !(Function.ofLine? line).isSome⟩

lemma parsed_add_skipped_tallyOf (lines : List (List Char)) :
    (tallyOf lines).parsed + (tallyOf lines).skipped = lines.length := by
  have either := List.length_eq_countP_add_countP (fun line => (Function.ofLine? line).isSome)
    (l := lines)
  simp only [Bool.not_eq_true, Bool.decide_eq_false] at either
  exact either.symm

lemma tallyOf_append (before behind : List (List Char)) :
    tallyOf (before ++ behind) = (tallyOf before).add (tallyOf behind) := by
  simp only [tallyOf, Tally.add, List.countP_append]

lemma tallyOf_eq_of_perm {lines reordered : List (List Char)} (h : reordered.Perm lines) :
    tallyOf reordered = tallyOf lines := by
  simp only [tallyOf, h.countP_eq]

/-- The lines that are not blank are read one by one, and each of them is counted. -/
lemma readDump_eq (text : String) :
    readDump text = ((definitionLines text.toList).filterMap Function.ofLine?,
      tallyOf (definitionLines text.toList)) := by
  generalize found : definitionLines text.toList = lines
  have whole := parsed_add_skipped_tallyOf lines
  have parsed : (lines.filterMap Function.ofLine?).length = (tallyOf lines).parsed :=
    List.length_filterMap_eq_countP
  have skipped : lines.length - (lines.filterMap Function.ofLine?).length =
      (tallyOf lines).skipped := by omega
  unfold readDump
  simp only [found, skipped]
  rw [parsed]

/-- Blank lines need not be passed over: they give no function anyway. -/
lemma functions_readDump (text : String) :
    (readDump text).1 = (lines text.toList).filterMap Function.ofLine? := by
  simp only [readDump_eq, definitionLines, List.filterMap_filter]
  congr 1
  funext line
  cases blank : isBlankText line with
  | true => simp [ofLine?_of_isBlankText blank]
  | false => simp

lemma parsed_readDump (text : String) : (readDump text).2.parsed = (readDump text).1.length := by
  simp only [readDump_eq]
  exact List.length_filterMap_eq_countP.symm

/-- Every line that is not blank gives a function or is skipped. -/
theorem parsed_add_skipped (text : String) :
    (readDump text).2.parsed + (readDump text).2.skipped =
      (lines text.toList).countP fun line => !isBlankText line := by
  rw [List.countP_eq_length_filter, readDump_eq]
  exact parsed_add_skipped_tallyOf _

lemma definitionLines_append (before behind : String) :
    definitionLines (before ++ "\n" ++ behind).toList =
      definitionLines (before ++ "\n").toList ++ definitionLines behind.toList := by
  unfold definitionLines
  rw [lines_append, List.filter_append]

/-- **Reading goes line by line.** -/
theorem readDump_append (before behind : String) :
    readDump (before ++ "\n" ++ behind) =
      ((readDump (before ++ "\n")).1 ++ (readDump behind).1,
        (readDump (before ++ "\n")).2.add (readDump behind).2) := by
  simp only [readDump_eq]
  rw [definitionLines_append, List.filterMap_append, tallyOf_append]

end Lines

/-! ## Lines that stand between the others -/

/-- Lines with others between them that give no function.  The last line stays the last. -/
inductive Padded : List String → List String → Prop
  | last (line : String) : Padded [line] [line]
  | keep (line : String) {kept padded : List String} (rest : Padded kept padded) :
      Padded (line :: kept) (line :: padded)
  | insert {line : String} {kept padded : List String} (unbroken : '\n' ∉ line.toList)
      (ignored : Ignored (dropCarriageReturn line.toList)) (rest : Padded kept padded) :
      Padded kept (line :: padded)

section Padded

variable {kept padded : List String}

lemma Padded.ne_nil (h : Padded kept padded) : kept ≠ [] ∧ padded ≠ [] := by
  induction h with
  | last => simp
  | keep => simp
  | insert _ _ _ ih => exact ⟨ih.1, List.cons_ne_nil _ _⟩

/-- A line that gives no function gives none when it is ended, either. -/
lemma functions_of_ignored {line : String} (unbroken : '\n' ∉ line.toList)
    (ignored : Ignored (dropCarriageReturn line.toList)) : (readDump (line ++ "\n")).1 = [] := by
  have single : lines (line ++ "\n").toList = [dropCarriageReturn line.toList] := by
    rw [toList_lineFeed_end, lines_line unbroken]
  rw [functions_readDump, single]
  simp [ignored.ofLine?_eq_none]

/-- Lines between the others leave the functions as they are. -/
theorem functions_padded (h : Padded kept padded) :
    (readDump ("\n".intercalate padded)).1 = (readDump ("\n".intercalate kept)).1 := by
  induction h with
  | last => rfl
  | keep line rest ih =>
    rw [String.intercalate_cons_of_ne_nil rest.ne_nil.1,
      String.intercalate_cons_of_ne_nil rest.ne_nil.2, readDump_append, readDump_append, ih]
  | insert unbroken ignored rest ih =>
    rw [String.intercalate_cons_of_ne_nil rest.ne_nil.2, readDump_append,
      functions_of_ignored unbroken ignored, List.nil_append, ih]

/-- A text with a visible character keeps it. -/
lemma isBlankText_of_padded (h : Padded kept padded)
    (blank : isBlankText ("\n".intercalate padded).toList = true) :
    isBlankText ("\n".intercalate kept).toList = true := by
  induction h with
  | last => exact blank
  | keep line rest ih =>
    rw [String.intercalate_cons_of_ne_nil rest.ne_nil.2] at blank
    rw [String.intercalate_cons_of_ne_nil rest.ne_nil.1]
    simp only [isBlankText, String.toList_append, List.all_append, Bool.and_eq_true] at blank ih ⊢
    exact ⟨blank.1, ih blank.2⟩
  | insert _ _ rest ih =>
    rw [String.intercalate_cons_of_ne_nil rest.ne_nil.2] at blank
    simp only [isBlankText, String.toList_append, List.all_append, Bool.and_eq_true] at blank ih ⊢
    exact ih blank.2

/-- Two dumps are read alike: the second has the functions and the summary of the first, and the
analysis of the first unless that is refused. -/
structure ReadAlike (text other : String) : Prop where
  functions : (readDump other).1 = (readDump text).1
  summary : (Analysis.mk (readDump other).1).summary = (Analysis.mk (readDump text).1).summary
  analysis : ∀ analysis, (Analysis.ofDump text).result = .ok analysis →
    (Analysis.ofDump other).result = .ok analysis

theorem readAlike_padded (h : Padded kept padded) :
    ReadAlike ("\n".intercalate kept) ("\n".intercalate padded) := by
  have functions := functions_padded h
  refine ⟨functions, by rw [functions], fun analysis read => ?_⟩
  obtain ⟨visible, rfl⟩ := Analysis.result_ofDump_eq_ok_iff.1 read
  refine Analysis.result_ofDump_eq_ok_iff.2 ⟨?_, by rw [functions]⟩
  rw [← Bool.not_eq_true] at visible ⊢
  exact fun blank => visible (isBlankText_of_padded h blank)

end Padded

/-! ## Carriage returns at the ends of lines -/

section CarriageReturns

variable {text : String}

theorem readDump_crlf (h : '\r' ∉ text.toList) :
    readDump (String.ofList (crlf text.toList)) = readDump text := by
  simp only [readDump, definitionLines, String.toList_ofList, lines_crlf h]

theorem ofDump_crlf (h : '\r' ∉ text.toList) :
    Analysis.ofDump (String.ofList (crlf text.toList)) = Analysis.ofDump text := by
  unfold Analysis.ofDump
  rw [readDump_crlf h, String.toList_ofList, isBlankText_crlf]

end CarriageReturns

/-! ## Lines in another order -/

section Reordered

variable {functions others : List Function} {ordered reordered : List String}

/-- A summary counts, so it does not depend on the order of the functions. -/
theorem summary_eq_of_perm (h : functions.Perm others) :
    (Analysis.mk functions).summary = (Analysis.mk others).summary := by
  have branches : (Analysis.mk functions).branches.Perm (Analysis.mk others).branches :=
    h.flatMap_right Function.branches
  have counts : (Analysis.mk functions).count = (Analysis.mk others).count := by
    funext wanted
    exact branches.countP_eq _
  simp only [Analysis.summary, Analysis.canonicalTotal, Analysis.bugsTotal, Analysis.unknownTotal,
    counts, h.length_eq, branches.length_eq]

lemma definitionLines_terminated (lines : List String) :
    definitionLines (terminated lines).toList =
      lines.flatMap fun line => definitionLines (line ++ "\n").toList := by
  induction lines with
  | nil => rfl
  | cons line rest ih =>
    rw [terminated_cons, definitionLines_append, ih, List.flatMap_cons]

/-- Two dumps have the same functions in different orders, and the same counts. -/
structure Reordered (text other : String) : Prop where
  functions : (readDump other).1.Perm (readDump text).1
  tally : (readDump other).2 = (readDump text).2
  summary : (Analysis.mk (readDump other).1).summary = (Analysis.mk (readDump text).1).summary
  analysis : ∀ analysis, (Analysis.ofDump text).result = .ok analysis →
    ∃ permuted, (Analysis.ofDump other).result = .ok permuted ∧
      permuted.functions.Perm analysis.functions ∧ permuted.summary = analysis.summary

theorem reordered_terminated (h : reordered.Perm ordered) :
    Reordered (terminated ordered) (terminated reordered) := by
  have permuted : (definitionLines (terminated reordered).toList).Perm
      (definitionLines (terminated ordered).toList) := by
    rw [definitionLines_terminated, definitionLines_terminated]
    exact h.flatMap_right _
  have functions : (readDump (terminated reordered)).1.Perm (readDump (terminated ordered)).1 := by
    simp only [readDump_eq]
    exact permuted.filterMap Function.ofLine?
  have tally : (readDump (terminated reordered)).2 = (readDump (terminated ordered)).2 := by
    simp only [readDump_eq]
    exact tallyOf_eq_of_perm permuted
  have blank : isBlankText (terminated reordered).toList =
      isBlankText (terminated ordered).toList := by
    have letters : (terminated reordered).toList.Perm (terminated ordered).toList := by
      simp only [terminated, String.toList_join]
      exact (h.map _).flatMap_right _
    exact letters.all_eq
  refine ⟨functions, tally, summary_eq_of_perm functions, fun analysis read => ?_⟩
  obtain ⟨visible, rfl⟩ := Analysis.result_ofDump_eq_ok_iff.1 read
  exact ⟨_, Analysis.result_ofDump_eq_ok_iff.2 ⟨blank.trans visible, rfl⟩, functions,
    summary_eq_of_perm functions⟩

end Reordered

/-! ## The law of reading -/

/-- **A dump is read line by line, and nothing is lost.**  Texts put together at a line feed are
read one after the other.  A text has the functions of its lines, as many as its tally says, and
every line that is not blank is in the tally.  Lines between the others that give no function change
neither the functions nor the summary nor the analysis, carriage returns at the ends of lines change
nothing at all, and another order of the lines changes only the order of the functions. -/
theorem readDump_line_by_line :
    (∀ before behind : String, readDump (before ++ "\n" ++ behind) =
      ((readDump (before ++ "\n")).1 ++ (readDump behind).1,
        (readDump (before ++ "\n")).2.add (readDump behind).2)) ∧
    (∀ text : String, (readDump text).1 = (lines text.toList).filterMap Function.ofLine? ∧
      (readDump text).2.parsed = (readDump text).1.length ∧
      (readDump text).2.parsed + (readDump text).2.skipped =
        (lines text.toList).countP fun line => !isBlankText line) ∧
    (∀ kept padded : List String, Padded kept padded →
      ReadAlike ("\n".intercalate kept) ("\n".intercalate padded)) ∧
    (∀ text : String, '\r' ∉ text.toList →
      readDump (String.ofList (crlf text.toList)) = readDump text ∧
      Analysis.ofDump (String.ofList (crlf text.toList)) = Analysis.ofDump text) ∧
    ∀ ordered reordered : List String, reordered.Perm ordered →
      Reordered (terminated ordered) (terminated reordered) := by
  refine ⟨readDump_append, fun text => ?_, fun _ _ => readAlike_padded,
    fun _ plain => ⟨readDump_crlf plain, ofDump_crlf plain⟩, fun _ _ => reordered_terminated⟩
  exact ⟨functions_readDump text, parsed_readDump text, parsed_add_skipped text⟩

/-- A blank line, a line without a name and one without a separator between two functions, of which
the first has a crash message without an end; the two functions with carriage returns; and the two
in the other order. -/
theorem readDump_line_by_line_two_functions :
    let f := "Main.f = [] (%concase A 0) Just (CRASH \"No clauses"
    let g := "Main.g = [] (%constcase 0 1)"
    let padded := ["\t\r", f, "= 1", "no separator\r", g]
    ReadAlike ("\n".intercalate [f, g]) ("\n".intercalate padded) ∧
      (readDump ("\n".intercalate padded)).2 = ⟨2, 2⟩ ∧
      readDump (String.ofList (crlf (terminated [f, g]).toList)) = readDump (terminated [f, g]) ∧
      Reordered (terminated [f, g]) (terminated [g, f]) := by
  intro f g padded
  obtain ⟨-, -, insertion, returns, order⟩ := readDump_line_by_line
  have longer : Padded [f, g] padded :=
    .insert (by decide) (.inl (by decide +kernel)) <| .keep f <|
      .insert (by decide) (.inr (by decide +kernel)) <|
      .insert (by decide) (.inr (by decide +kernel)) <| .last g
  refine ⟨insertion _ _ longer, by decide +kernel, ?_, order _ _ (List.Perm.swap f g [])⟩
  exact (returns (terminated [f, g]) (by decide +kernel)).1

end CaseTree

end BranchCoverage
