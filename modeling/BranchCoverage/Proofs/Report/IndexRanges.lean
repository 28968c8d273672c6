import BranchCoverage.Proofs.CaseTree.Identity
import BranchCoverage.Proofs.Coverage.Targets
import BranchCoverage.Report.IndexRanges

/-!
# Reading index ranges back

A report names the branches of a target by ranges of their indexes.  A reader takes the text apart
at each comma with a blank behind it, and takes `a-b` for all indexes from `a` to `b`
(`IndexRange.readIndexes?`).  What is read in this way is what was printed, index by index, for any
list at all: in any order, and with repetitions (`IndexRange.textOfIndexes_lossless`).

Two facts meet in this.  A range of two numbers, or of one, is known by its text, because digits are
neither commas nor hyphens (`readRanges?_intercalate`).  And the ranges of a list, put one after the
other, are the list (`flatMap_toList_ofIndexes`).  They are also as few as possible.  An index in
front of a list takes a range of its own exactly if its neighbour does not follow it
(`length_ofIndexes_cons_cons`), so a list has one range more than it has breaks, and ranges that
make up the list in any other way are not fewer (`length_ofIndexes_flatMap_le`).

Ranges are meant for ascending indexes, and this is what a report prints: the branches of a function
are numbered in order, and a target lists some of them in this order
(`Target.pairwise_branchIndex`).
-/

namespace BranchCoverage

open CaseTree Text

/-! ## Numbers and pieces of a text -/

namespace Text

/-- A number is read back from its digits. -/
lemma readNatural_decimal (n : Nat) : readNatural (decimal n) = some n := by
  have written : (decimal n).isEmpty = false := by
    simpa using decimal_ne_nil n
  have digits : (decimal n).all Char.isDigit = true :=
    List.all_eq_true.2 fun _ => isDigit_of_mem_decimal
  have value : (decimal n).foldl (fun value c => 10 * value + (c.toNat - '0'.toNat)) 0 = n :=
    Nat.ofDigitChars_ten_toDigits
  rw [readNatural, written, digits, value]
  rfl

lemma notMem_decimal {c : Char} (h : c.isDigit = false) (n : Nat) : c ∉ decimal n := by
  intro hmem
  rw [isDigit_of_mem_decimal hmem] at h
  cases h

end Text

namespace IndexRange

/-! ## The indexes of ranges -/

/-- The indexes that a range stands for, in order. -/
def toList (range : IndexRange) : List Nat :=
  List.range' range.first (range.last + 1 - range.first)

/-- The number of neighbours in a list of which the second does not follow the first. -/
def breaks (indexes : List Nat) : Nat :=
  (indexes.zip indexes.tail).countP fun (index, next) => next ≠ index + 1

lemma ofIndexes_cons (index : Nat) (indexes : List Nat) :
    ofIndexes (index :: indexes) = addInFront index (ofIndexes indexes) := rfl

/-- The first range begins with the first index, and does not end below it. -/
lemma exists_ofIndexes_cons (index : Nat) (indexes : List Nat) :
    ∃ last others, index ≤ last ∧ ofIndexes (index :: indexes) = ⟨index, last⟩ :: others := by
  induction indexes generalizing index with
  | nil => exact ⟨index, [], Nat.le_refl index, rfl⟩
  | cons next indexes ih =>
    obtain ⟨last, others, upward, same⟩ := ih next
    rw [ofIndexes_cons, same, addInFront]
    split
    · rename_i follows
      simp only at follows
      exact ⟨last, others, by omega, rfl⟩
    · exact ⟨index, ⟨next, last⟩ :: others, Nat.le_refl index, rfl⟩

lemma toList_cons {index last : Nat} (upward : index < last) :
    toList ⟨index, last⟩ = index :: toList ⟨index + 1, last⟩ := by
  have more : last + 1 - index = last + 1 - (index + 1) + 1 := by omega
  show List.range' index (last + 1 - index) = _
  rw [more, List.range'_succ]
  rfl

lemma toList_single (index : Nat) : toList ⟨index, index⟩ = [index] := by
  have one : index + 1 - index = 1 := by omega
  show List.range' index (index + 1 - index) = _
  rw [one, List.range'_one]

/-- The ranges of a list make up the list. -/
theorem flatMap_toList_ofIndexes (indexes : List Nat) :
    (ofIndexes indexes).flatMap toList = indexes := by
  induction indexes with
  | nil => rfl
  | cons index indexes ih =>
    cases indexes with
    | nil => simp [ofIndexes, addInFront, toList_single]
    | cons next indexes =>
      obtain ⟨last, others, upward, same⟩ := exists_ofIndexes_cons next indexes
      rw [same, List.flatMap_cons] at ih
      rw [ofIndexes_cons, same, addInFront]
      split
      · rename_i follows
        obtain rfl : next = index + 1 := follows
        have below : index < last := by omega
        rw [List.flatMap_cons, toList_cons below, List.cons_append, ih]
      · rw [List.flatMap_cons, List.flatMap_cons, toList_single, ih]
        rfl

/-! ## How many ranges there are -/

/-- An index takes a range of its own exactly if its neighbour does not follow it. -/
lemma length_ofIndexes_cons_cons (index next : Nat) (indexes : List Nat) :
    (ofIndexes (index :: next :: indexes)).length =
      (ofIndexes (next :: indexes)).length + if next = index + 1 then 0 else 1 := by
  obtain ⟨last, others, -, same⟩ := exists_ofIndexes_cons next indexes
  rw [ofIndexes_cons, same, addInFront]
  by_cases follows : next = index + 1
  · simp [follows]
  · simp [follows]

lemma breaks_cons_cons (index next : Nat) (indexes : List Nat) :
    breaks (index :: next :: indexes) =
      breaks (next :: indexes) + if next = index + 1 then 0 else 1 := by
  rw [breaks, List.tail_cons, List.zip_cons_cons, List.countP_cons, breaks, List.tail_cons]
  by_cases follows : next = index + 1
  · simp [follows]
  · simp [follows]

/-- There is one range more than there are breaks. -/
theorem length_ofIndexes {indexes : List Nat} (h : indexes ≠ []) :
    (ofIndexes indexes).length = breaks indexes + 1 := by
  induction indexes with
  | nil => exact absurd rfl h
  | cons index indexes ih =>
    cases indexes with
    | nil => rfl
    | cons next indexes =>
      rw [length_ofIndexes_cons_cons, breaks_cons_cons, ih (List.cons_ne_nil next indexes)]
      omega

/-- A range in front of a list makes at most one range more. -/
lemma length_ofIndexes_range'_append (first count : Nat) (indexes : List Nat) :
    (ofIndexes (List.range' first count ++ indexes)).length ≤ (ofIndexes indexes).length + 1 := by
  induction count generalizing first with
  | zero => simp
  | succ count ih =>
    rw [List.range'_succ, List.cons_append]
    cases count with
    | zero =>
      cases indexes with
      | nil => simp [ofIndexes, addInFront]
      | cons next indexes =>
        have step := length_ofIndexes_cons_cons first next indexes
        simp only [List.range'_zero, List.nil_append]
        split at step <;> omega
    | succ count =>
      have rest := ih (first + 1)
      rw [List.range'_succ, List.cons_append] at rest ⊢
      rwa [length_ofIndexes_cons_cons, if_pos rfl, Nat.add_zero]

/-- Ranges that make up a list are not fewer than the ranges of the list. -/
theorem length_ofIndexes_flatMap_le (ranges : List IndexRange) :
    (ofIndexes (ranges.flatMap toList)).length ≤ ranges.length := by
  induction ranges with
  | nil => exact Nat.le_refl 0
  | cons range ranges ih =>
    have front := length_ofIndexes_range'_append range.first (range.last + 1 - range.first)
      (ranges.flatMap toList)
    rw [List.flatMap_cons, List.length_cons, toList]
    omega

/-! ## Reading -/

/-- The pieces of a text between comma and blank. -/
def pieces : List Char → List (List Char)
  | [] => [[]]
  | ',' :: ' ' :: rest => [] :: pieces rest
  | c :: rest => (pieces rest).modifyHead (c :: ·)

/-- The range of a piece: a number, or two numbers with a hyphen between them. -/
def readRange? (piece : List Char) : Option IndexRange :=
  match piece.splitOn '-' with
  | [index] => (readNatural index).map fun index => ⟨index, index⟩
  | [first, last] => return ⟨← readNatural first, ← readNatural last⟩
  | _ => none

/-- The ranges that a text writes.  The empty text writes none. -/
def readRanges? (text : String) : Option (List IndexRange) :=
  if text.isEmpty then some [] else (pieces text.toList).mapM readRange?

/-- The indexes that a text writes. -/
def readIndexes? (text : String) : Option (List Nat) :=
  (readRanges? text).map fun ranges => ranges.flatMap toList

lemma pieces_append {piece : List Char} (h : ',' ∉ piece) (rest : List Char) :
    pieces (piece ++ ',' :: ' ' :: rest) = piece :: pieces rest := by
  induction piece with
  | nil => rfl
  | cons c piece ih =>
    obtain ⟨comma, h⟩ := List.ne_and_not_mem_of_not_mem_cons h
    rw [List.cons_append, pieces, ih h]
    · rfl
    · intro _ same
      exact absurd same.symm comma

lemma pieces_of_notMem {piece : List Char} (h : ',' ∉ piece) : pieces piece = [piece] := by
  induction piece with
  | nil => rfl
  | cons c piece ih =>
    obtain ⟨comma, h⟩ := List.ne_and_not_mem_of_not_mem_cons h
    rw [pieces, ih h]
    · rfl
    · intro _ same
      exact absurd same.symm comma

/-- Pieces without a comma are read back from where they are joined. -/
lemma pieces_intercalate {texts : List (List Char)} (hne : texts ≠ [])
    (h : ∀ text ∈ texts, ',' ∉ text) : pieces ([',', ' '].intercalate texts) = texts := by
  induction texts with
  | nil => exact absurd rfl hne
  | cons text texts ih =>
    obtain ⟨comma, rest⟩ := List.forall_mem_cons.1 h
    cases texts with
    | nil => rw [List.intercalate_singleton, pieces_of_notMem comma]
    | cons next texts =>
      have joined : [',', ' '].intercalate (text :: next :: texts) =
          text ++ ',' :: ' ' :: [',', ' '].intercalate (next :: texts) := by simp
      rw [joined, pieces_append comma, ih (List.cons_ne_nil next texts) rest]

lemma toList_text (range : IndexRange) :
    range.text.toList =
      if range.first = range.last then decimal range.first
      else decimal range.first ++ '-' :: decimal range.last := by
  rw [text]
  split <;> simp [decimal]

lemma comma_notMem_text (range : IndexRange) : ',' ∉ range.text.toList := by
  have plain := notMem_decimal (c := ',') (by decide)
  rw [toList_text]
  split
  · exact plain range.first
  · simp [plain]

/-- A range is read back from its text. -/
lemma readRange?_text (range : IndexRange) : readRange? range.text.toList = some range := by
  have plain := notMem_decimal (c := '-') (by decide)
  rw [toList_text, readRange?]
  split_ifs with single
  · rw [List.splitOn_eq_singleton (plain range.first)]
    obtain ⟨first, last⟩ := range
    obtain rfl : first = last := single
    simp [readNatural_decimal]
  · rw [List.splitOn_append_cons_self_of_not_mem (plain range.first),
      List.splitOn_eq_singleton (plain range.last)]
    simp [readNatural_decimal]

lemma text_ne_nil (range : IndexRange) : range.text.toList ≠ [] := by
  rw [toList_text]
  split
  · exact decimal_ne_nil range.first
  · simp

lemma mapM_readRange?_text (ranges : List IndexRange) :
    (ranges.map (String.toList ∘ text)).mapM readRange? = some ranges := by
  induction ranges with
  | nil => rfl
  | cons range ranges ih => simp [readRange?_text, ih]

/-- Ranges are read back from the text in which they are joined. -/
theorem readRanges?_intercalate (ranges : List IndexRange) :
    readRanges? (", ".intercalate (ranges.map text)) = some ranges := by
  by_cases none : ranges = []
  · subst none
    rfl
  have plain : ∀ piece ∈ ranges.map (String.toList ∘ text), ',' ∉ piece :=
    List.forall_mem_map.2 fun range _ => comma_notMem_text range
  have split : pieces (", ".intercalate (ranges.map text)).toList =
      ranges.map (String.toList ∘ text) := by
    rw [String.toList_intercalate, List.map_map]
    exact pieces_intercalate (by simpa using none) plain
  have written : ¬ (", ".intercalate (ranges.map text)).isEmpty = true := by
    intro empty
    rw [String.isEmpty_iff.1 empty] at split
    have blank : [] ∈ ranges.map (String.toList ∘ text) := by
      rw [← split]
      exact List.mem_singleton_self []
    obtain ⟨range, -, same⟩ := List.mem_map.1 blank
    exact text_ne_nil range same
  rw [readRanges?, if_neg written, split, mapM_readRange?_text]

/-- The text of a list is read as the ranges of the list. -/
lemma readRanges?_textOfIndexes (indexes : List Nat) :
    readRanges? (textOfIndexes indexes) = some (ofIndexes indexes) :=
  readRanges?_intercalate (ofIndexes indexes)

end IndexRange

/-! ## What a report prints -/

/-- The indexes of the branches that a target lists are strictly ascending. -/
lemma Target.pairwise_branchIndex {text : String} {analysis : Analysis} {runs : List Run.Hits}
    {target : Target} (hdump : (Analysis.ofDump text).result = .ok analysis)
    (htarget : target ∈ (Coverage.ofRuns analysis runs).targets) :
    (target.branches.map Branch.Id.branchIndex).Pairwise (· < ·) := by
  obtain ⟨-, rfl⟩ := Analysis.result_ofDump_eq_ok_iff.1 hdump
  obtain ⟨function, hf, listed⟩ := List.mem_flatMap.1 htarget
  have numbered := (Function.numbered_of_mem_readDump hf).pairwise_branchIndex
  rw [branches_of_mem_ofFunction listed, List.pairwise_map]
  exact numbered.sublist (List.filter_sublist.map Branch.id)

namespace IndexRange

/-- **Index ranges lose nothing.**  For any list of indexes, the text of its ranges is read as these
ranges, which make up the list; there is one range more than there are breaks in the list, and no
list is made up of fewer ranges.  And what is printed are ascending indexes: those of the branches
of a target, for any runs of a dump. -/
theorem textOfIndexes_lossless :
    (∀ indexes : List Nat,
      readIndexes? (textOfIndexes indexes) = some indexes ∧
      readRanges? (textOfIndexes indexes) = some (ofIndexes indexes) ∧
      (indexes ≠ [] → (ofIndexes indexes).length = breaks indexes + 1) ∧
      ∀ ranges : List IndexRange, ranges.flatMap toList = indexes →
        (ofIndexes indexes).length ≤ ranges.length) ∧
    ∀ (text : String) (analysis : Analysis) (runs : List Run.Hits),
      (Analysis.ofDump text).result = .ok analysis →
      ∀ target ∈ (Coverage.ofRuns analysis runs).targets,
        (target.branches.map Branch.Id.branchIndex).Pairwise (· < ·) := by
  refine ⟨fun indexes => ⟨?_, readRanges?_textOfIndexes indexes, length_ofIndexes, ?_⟩, ?_⟩
  · rw [readIndexes?, readRanges?_textOfIndexes, Option.map_some, flatMap_toList_ofIndexes]
  · rintro ranges rfl
    exact length_ofIndexes_flatMap_le ranges
  · intro text analysis runs hdump target htarget
    exact Target.pairwise_branchIndex hdump htarget

/-- A target of which a run has hit the second branch, and a list that is not in order. -/
theorem textOfIndexes_lossless_second_hit :
    let text := "A.f = [] (%concase X 0) (%concase Y 1) (%constcase 5) (%constcase 6)"
    let run : Run.Hits := { run := "unit", hits := [⟨⟨"A", "f", 0, 1⟩, 2⟩], unmapped := [] }
    ∃ analysis, (Analysis.ofDump text).result = .ok analysis ∧
      (∃ target ∈ (Coverage.ofRuns analysis [run]).targets,
        target.branches.map Branch.Id.branchIndex = [0, 2, 3] ∧
        (target.branches.map Branch.Id.branchIndex).Pairwise (· < ·)) ∧
      textOfIndexes [0, 2, 3] = "0, 2-3" ∧ readIndexes? "0, 2-3" = some [0, 2, 3] ∧
      (ofIndexes [7, 8, 8, 2]).length = 3 := by
  intro text run
  obtain ⟨lists, targets⟩ := textOfIndexes_lossless
  have dump : (Analysis.ofDump text).result = .ok { functions := (readDump text).1 } :=
    Analysis.result_ofDump_eq_ok_iff.2 ⟨by decide +kernel, rfl⟩
  let left : Target := ⟨"A.f", .uncovered, [⟨"A", "f", 0, 0⟩, ⟨"A", "f", 0, 2⟩, ⟨"A", "f", 0, 3⟩]⟩
  have listed : left ∈ (Coverage.ofRuns { functions := (readDump text).1 } [run]).targets := by
    decide +kernel
  have printed : textOfIndexes [0, 2, 3] = "0, 2-3" := by decide +kernel
  refine ⟨_, dump, ⟨left, listed, rfl, targets text _ [run] dump left listed⟩, printed, ?_, ?_⟩
  · rw [← printed]
    exact (lists [0, 2, 3]).1
  · exact (lists [7, 8, 8, 2]).2.2.1 (by decide)

end IndexRange

end BranchCoverage
