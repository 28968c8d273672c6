import BranchCoverage.Proofs.Attribution.Partition
import BranchCoverage.Proofs.Profile.Definitions
import BranchCoverage.Proofs.Text.Lines

/-!
# The numbers of definition lines

The lines of a profile are numbered by another program, so the numbers of the definitions have to be
exact in every source: one that ends in a line feed or not, with any line ends, and with definitions
nested in others.  `scan_append` says so without counting lines one by one.  A source that is put
together at a line feed has the definitions in front of it, and those behind it as many lines
further down as there are lines in front.

A line that opens no definition moves what stands behind it and has no other effect
(`scan_insert`), wherever it is inserted.  That holds behind the last line as well, since it makes
no difference to a definition line how it is ended (`nameOf?_dropCarriageReturn`): a name ends in
front of every blank.  So the definitions are those of the pieces of the source, numbered from one
(`scan_eq_segments`).
-/

namespace BranchCoverage.Definition

open Text

/-! ## Lines that open no definition -/

/-- A line opens a definition of some name. -/
def IsOpening (line : List Char) : Prop :=
  ∃ name, name ≠ [] ∧ (∀ c ∈ name, isNameChar c = true) ∧ Opens name line

section Opening

variable {name line blanks rest : List Char} {c : Char}

lemma nameOf?_eq_none_iff : nameOf? line = none ↔ ¬ IsOpening line := by
  rw [Option.eq_none_iff_forall_not_mem, IsOpening, not_exists]
  simp only [Option.mem_def, nameOf?_eq_some_iff]

/-- Indented definitions, comments and blank lines do not begin with the mark. -/
lemma not_isOpening_of_head? (h : line.head? ≠ some '(') : ¬ IsOpening line := by
  rintro ⟨name, -, -, blanks, rest, rfl, -⟩
  exact h rfl

/-- A form that takes parameters has a parenthesis where its name would be. -/
lemma not_isOpening_parameters (blank : isBlankText blanks = true) :
    ¬ IsOpening (mark ++ (blanks ++ '(' :: rest)) := by
  rintro ⟨name, nonempty, visible, spaces, behind, whole, -, spaced, -⟩
  obtain ⟨c, others, rfl⟩ := List.exists_cons_of_ne_nil nonempty
  have hc := visible c List.mem_cons_self
  have first : isBlank c = false := (isNameChar_iff.1 hc).1
  have words := congrArg trimStart (List.append_cancel_left whole)
  rw [trimStart_append_of_isBlankText blank, trimStart_append_of_isBlankText spaced,
    trimStart_of_head? (by simp [show isBlank '(' = false by decide]),
    trimStart_of_head? (by simp [first])] at words
  obtain rfl : '(' = c := (List.cons.inj words).1
  exact absurd hc (by decide)

lemma opens_append_blank_iff (nonempty : name ≠ []) (visible : ∀ c ∈ name, isNameChar c = true)
    (blank : isBlank c = true) : Opens name (line ++ [c]) ↔ Opens name line := by
  constructor
  · rintro ⟨blanks, rest, whole, spaced, blankText, ends⟩
    rcases List.eq_nil_or_concat rest with rfl | ⟨rest, last, rfl⟩
    · -- the name would end in a blank
      have inName : c ∈ name := by
        have lasts := congrArg List.getLast? whole
        rw [List.append_nil, List.getLast?_concat, ← List.append_assoc,
          List.getLast?_append_of_ne_nil _ nonempty] at lasts
        exact List.mem_of_mem_getLast? lasts.symm
      have inner := (isNameChar_iff.1 (visible c inName)).1
      exact absurd (blank.symm.trans inner) (by decide)
    · refine ⟨blanks, rest, ?_, spaced, blankText, ?_⟩
      · have parts : line ++ [c] = (mark ++ (blanks ++ (name ++ rest))) ++ [last] := by
          simpa using whole
        exact (List.append_inj' parts rfl).1
      · intro first hfirst
        refine ends first ?_
        rw [List.concat_eq_append, List.head?_append, Option.mem_def.1 hfirst]
        rfl
  · rintro ⟨blanks, rest, rfl, spaced, blankText, ends⟩
    refine ⟨blanks, rest ++ [c], by simp, spaced, blankText, ?_⟩
    cases rest with
    | nil => simpa using .inl blank
    | cons first rest => exact ends

/-- A blank at the end of a line makes no difference. -/
lemma nameOf?_append_blank (blank : isBlank c = true) : nameOf? (line ++ [c]) = nameOf? line := by
  apply Option.ext
  intro name
  rw [nameOf?_eq_some_iff, nameOf?_eq_some_iff]
  refine and_congr_right fun nonempty => and_congr_right fun visible => ?_
  exact opens_append_blank_iff nonempty visible blank

lemma nameOf?_dropCarriageReturn (line : List Char) :
    nameOf? (dropCarriageReturn line) = nameOf? line := by
  unfold dropCarriageReturn
  split
  · rename_i returned
    obtain ⟨front, rfl⟩ := List.getLast?_eq_some_iff.1 returned
    rw [List.dropLast_concat, nameOf?_append_blank (by decide)]
  · rfl

end Opening

/-! ## Numbered lines -/

/-- The definition, some lines further down. -/
def lower (count : Nat) (definition : Definition) : Definition :=
  { definition with line := definition.line + count }

/-- The definition after lines have been inserted behind the line with the number `place`. -/
def makeRoom (place count : Nat) (definition : Definition) : Definition :=
  if definition.line ≤ place then definition else definition.lower count

section Numbered

variable {before after : List (List Char)} {number place count : Nat} {definition : Definition}

lemma ofLines_map {f : List Char → List Char} (same : ∀ line, nameOf? (f line) = nameOf? line)
    (number : Nat) (before : List (List Char)) :
    ofLines number (before.map f) = ofLines number before := by
  unfold ofLines
  rw [List.zipIdx_map, List.filterMap_map]
  congr 1
  funext ⟨line, number⟩
  simp [same]

/-- The definitions of later lines are the same definitions, later. -/
lemma ofLines_add (number count : Nat) (after : List (List Char)) :
    ofLines (number + count) after = (ofLines number after).map (lower count) := by
  unfold ofLines
  rw [Nat.add_comm, ← List.map_snd_add_zipIdx_eq_zipIdx, List.filterMap_map, List.map_filterMap]
  congr 1
  funext ⟨line, number⟩
  simp only [Function.comp_apply, Prod.map_apply, id_eq, Option.map_map]
  rfl

lemma ofLines_eq_nil (passed : ∀ line ∈ before, ¬ IsOpening line) : ofLines number before = [] := by
  unfold ofLines
  rw [List.filterMap_eq_nil_iff]
  rintro ⟨line, place⟩ numbered
  have absent := nameOf?_eq_none_iff.2 (passed line (List.fst_mem_of_mem_zipIdx numbered))
  simp [absent]

/-- A definition has the number of a line. -/
lemma line_of_mem_ofLines (h : definition ∈ ofLines number before) :
    number ≤ definition.line ∧ definition.line < number + before.length := by
  obtain ⟨⟨line, place⟩, numbered, read⟩ := List.mem_filterMap.1 h
  obtain ⟨name, -, rfl⟩ := Option.map_eq_some_iff.1 read
  exact ⟨List.le_snd_of_mem_zipIdx numbered, List.snd_lt_add_of_mem_zipIdx numbered⟩

/-- Lines that open no definition move the definitions behind them, and these only. -/
lemma ofLines_insert {added : List (List Char)} (passed : ∀ line ∈ added, ¬ IsOpening line) :
    ofLines 1 (before ++ added ++ after) =
      (ofLines 1 (before ++ after)).map (makeRoom before.length added.length) := by
  have front : (ofLines 1 before).map (makeRoom before.length added.length) = ofLines 1 before := by
    refine (List.map_congr_left fun definition hd => ?_).trans (List.map_id _)
    have above := (line_of_mem_ofLines hd).2
    exact if_pos (by omega)
  have behind : (ofLines (1 + before.length) after).map (makeRoom before.length added.length) =
      ofLines (1 + before.length + added.length) after := by
    rw [ofLines_add (1 + before.length)]
    refine List.map_congr_left fun definition hd => ?_
    have below := (line_of_mem_ofLines hd).1
    exact if_neg (by omega)
  rw [ofLines_append, ofLines_append, ofLines_append, ofLines_eq_nil passed, List.append_nil,
    List.length_append, List.map_append, front, behind, Nat.add_assoc]

end Numbered

/-! ## The definitions of a source -/

section Source

variable {front added behind : List String} {source : String} {definition : Definition}

/-- The definitions are those of the pieces of a source, whether its last line is ended or not. -/
theorem scan_eq_segments (source : String) :
    scan source = ofLines 1 (segments '\n' source.toList) := by
  obtain ⟨front, last, split⟩ :=
    (List.eq_nil_or_concat _).resolve_left (segments_ne_nil '\n' source.toList)
  rw [List.concat_eq_append] at split
  rw [scan_eq_ofLines, lines, split]
  simp only [List.dropLast_concat, List.getLast?_concat]
  rw [ofLines_append, ofLines_append, ofLines_map nameOf?_dropCarriageReturn, List.length_map]
  congr 1
  cases last <;> rfl

lemma scan_intercalate {pieces : List String} (unbroken : ∀ line ∈ pieces, '\n' ∉ line.toList) :
    scan ("\n".intercalate pieces) = ofLines 1 (pieces.map String.toList) := by
  cases pieces with
  | nil => rfl
  | cons line rest =>
    have lineFeed : "\n".toList = ['\n'] := by simp
    rw [scan_eq_segments, String.toList_intercalate, segments_eq_splitOn, lineFeed,
      List.splitOn_intercalate '\n' (by simpa using unbroken) (by simp)]

/-- **Definitions of texts put together.** -/
theorem scan_append (before behind : String) :
    scan (before ++ "\n" ++ behind) =
      scan (before ++ "\n") ++ (scan behind).map (lower (1 + before.toList.count '\n')) := by
  have count : (lines (before ++ "\n").toList).length = 1 + before.toList.count '\n' := by
    rw [toList_lineFeed_end, length_lines_lineFeed_end, Nat.add_comm]
  simp only [scan_eq_ofLines]
  rw [lines_append, ofLines_append, ofLines_add, count]

/-- **Lines that open no definition.**  The definitions behind the place where they are inserted are
as many lines further down, and nothing else changes. -/
theorem scan_insert (unbroken : ∀ line ∈ front ++ added ++ behind, '\n' ∉ line.toList)
    (passed : ∀ line ∈ added, ¬ IsOpening line.toList) :
    scan ("\n".intercalate (front ++ added ++ behind)) =
      (scan ("\n".intercalate (front ++ behind))).map (makeRoom front.length added.length) := by
  have unbroken' : ∀ line ∈ front ++ behind, '\n' ∉ line.toList := by
    intro line hline
    apply unbroken
    simp only [List.mem_append] at hline ⊢
    tauto
  rw [scan_intercalate unbroken, scan_intercalate unbroken', List.map_append, List.map_append,
    List.map_append, ofLines_insert (by simpa using passed), List.length_map, List.length_map]

/-- A source of one line that opens a definition has just this definition. -/
lemma scan_of_opens {name line : List Char} (unbroken : '\n' ∉ line) (nonempty : name ≠ [])
    (visible : ∀ c ∈ name, isNameChar c = true) (opens : Opens name line) :
    scan (String.ofList line) = [{ runtimeName := String.ofList name, line := 1 }] := by
  rw [scan_eq_segments, String.toList_ofList, segments_of_notMem unbroken,
    ofLines_cons (nameOf?_eq_some_iff.2 ⟨nonempty, visible, opens⟩)]
  rfl

/-- A definition stands on a line of its source. -/
lemma line_of_mem_scan (h : definition ∈ scan source) :
    1 ≤ definition.line ∧ definition.line ≤ (lines source.toList).length := by
  rw [scan_eq_ofLines] at h
  obtain ⟨first, last⟩ := line_of_mem_ofLines h
  exact ⟨first, by omega⟩

/-- A definition has a name, of name characters. -/
lemma name_of_mem_scan (h : definition ∈ scan source) :
    definition.runtimeName ≠ "" ∧ ∀ c ∈ definition.runtimeName.toList, isNameChar c = true := by
  obtain ⟨line, -, named⟩ := exists_line_of_mem_ofLines h
  obtain ⟨nonempty, visible, -⟩ := nameOf?_eq_some_iff.1 named
  refine ⟨?_, visible⟩
  intro empty
  exact nonempty (by rw [empty]; rfl)

/-- **The numbers of definition lines are exact.**  A line that opens a definition has it as its
only one.  Texts put together at a line feed have the definitions of the first, and those of the
second further down by the number of lines in front.  Inserted lines that open no definition, such
as indented ones, comments, blank lines and forms with parameters, move the definitions behind them
by their number and change nothing else.  The lines of the definitions increase strictly and are
lines of the source, and no name is empty or holds a blank or a parenthesis. -/
theorem scan_exact :
    (∀ name line : List Char, '\n' ∉ line → name ≠ [] → (∀ c ∈ name, isNameChar c = true) →
      Opens name line →
      scan (String.ofList line) = [{ runtimeName := String.ofList name, line := 1 }]) ∧
    (∀ before behind : String, scan (before ++ "\n" ++ behind) =
      scan (before ++ "\n") ++ (scan behind).map (lower (1 + before.toList.count '\n'))) ∧
    (∀ front added behind : List String, (∀ line ∈ front ++ added ++ behind, '\n' ∉ line.toList) →
      (∀ line ∈ added, ¬ IsOpening line.toList) →
      scan ("\n".intercalate (front ++ added ++ behind)) =
        (scan ("\n".intercalate (front ++ behind))).map (makeRoom front.length added.length)) ∧
    (∀ line : List Char, line.head? ≠ some '(' → ¬ IsOpening line) ∧
    (∀ blanks rest : List Char, isBlankText blanks = true →
      ¬ IsOpening (mark ++ (blanks ++ '(' :: rest))) ∧
    ∀ source : String, Ascending (scan source) ∧ ∀ definition ∈ scan source,
      1 ≤ definition.line ∧ definition.line ≤ (lines source.toList).length ∧
      definition.runtimeName ≠ "" ∧
      ∀ c ∈ definition.runtimeName.toList, isBlank c = false ∧ c ≠ '(' ∧ c ≠ ')' := by
  refine ⟨fun _ _ => scan_of_opens, scan_append, fun _ _ _ => scan_insert,
    fun _ => not_isOpening_of_head?, fun _ _ => not_isOpening_parameters, fun source => ?_⟩
  refine ⟨ascending_scan source, fun definition hd => ?_⟩
  obtain ⟨first, last⟩ := line_of_mem_scan hd
  obtain ⟨named, visible⟩ := name_of_mem_scan hd
  exact ⟨first, last, named, fun c hc => isNameChar_iff.1 (visible c hc)⟩

/-- A nested definition, a form with parameters, a comment and a blank line between two definitions,
of which the first has a carriage return and the second ends the source. -/
theorem scan_exact_four_inserted :
    let front := ["; head", "(define MainC-46f (lambda (x)\r"]
    let added := ["  (define y 1)", "(define (g x) x)", ";; (define h 0)", ""]
    let behind := ["(define\tMainC-46main"]
    scan ("\n".intercalate (front ++ behind)) = [⟨"MainC-46f", 2⟩, ⟨"MainC-46main", 3⟩] ∧
      scan ("\n".intercalate (front ++ added ++ behind)) =
        [⟨"MainC-46f", 2⟩, ⟨"MainC-46main", 7⟩] := by
  intro front added behind
  have unbroken : ∀ line ∈ front ++ added ++ behind, '\n' ∉ line.toList := by decide
  have passed : ∀ line ∈ added, ¬ IsOpening line.toList := by
    simp only [added, List.forall_mem_cons]
    exact ⟨not_isOpening_of_head? (by decide),
      @not_isOpening_parameters [' '] "g x) x)".toList rfl,
      not_isOpening_of_head? (by decide), not_isOpening_of_head? (by decide), by simp⟩
  have before : scan ("\n".intercalate (front ++ behind)) =
      [⟨"MainC-46f", 2⟩, ⟨"MainC-46main", 3⟩] := by decide +kernel
  refine ⟨before, ?_⟩
  rw [scan_exact.2.2.1 front added behind unbroken passed, before]
  rfl

end Source

end BranchCoverage.Definition
