import BranchCoverage.Proofs.Attribution.Selection
import BranchCoverage.Proofs.Name
import BranchCoverage.Proofs.Profile.Definitions

/-!
# Emitted definitions are found

When the back end writes a definition under the runtime name of a function, attribution finds it,
whatever else the source holds.  Four readers have to agree for that.

* The **encoder** writes names that survive reading.  Whatever the characters of a name are, its
  runtime name is made of letters, digits, underscores and hyphens (`isNameChar_of_mem_encodeName`),
  and it is empty for two names only, of which no dump line defines the empty one
  (`encodeName_ne_nil`).
* The **reader of a line** takes the whole name and nothing more (`Definition.nameOf?_eq_some_iff`).
* The **numbering** of lines counts every line in front (`Definition.ofLines_append`).
* The **search** prefers an exact name to one that only ends in it, wherever the two stand
  (`find?_append_cons`).

The dot is left out for the namespace-hyphen scheme.  Its module and its function both have the
empty name, so nothing is left to write, and a line without a name defines nothing.
-/

namespace BranchCoverage

open CaseTree RuntimeName

/-! ## Runtime names as words -/

namespace RuntimeName

/-- Plain characters are the digits, the upper-case letters, the underscore and the lower-case
letters. -/
lemma toNat_of_isPlain {c : Char} (h : isPlain c = true) :
    48 ≤ c.toNat ∧ c.toNat ≤ 57 ∨ 65 ≤ c.toNat ∧ c.toNat ≤ 90 ∨ c.toNat = 95 ∨
      97 ≤ c.toNat ∧ c.toNat ≤ 122 := by
  have classes : (decide (65 ≤ c.val ∧ c.val ≤ 90) || (97 ≤ c.val && c.val ≤ 122) ||
      (48 ≤ c.val && c.val ≤ 57) || c = '_') = true := h
  simp only [Bool.or_eq_true, Bool.and_eq_true, decide_eq_true_eq, UInt32.le_iff_toNat_le]
    at classes
  rcases classes with ((upper | lower) | digit) | rfl
  · exact .inr (.inl upper)
  · exact .inr (.inr (.inr lower))
  · exact .inl digit
  · exact .inr (.inr (.inl rfl))

lemma isNameChar_of_isPlain {c : Char} (h : isPlain c = true) : Definition.isNameChar c = true := by
  have range := toNat_of_isPlain h
  have visible : Text.isBlank c = false := by
    simp only [Text.isBlank, Text.blankRanges, List.any_cons, List.any_nil, Bool.or_eq_false_iff,
      Bool.and_eq_false_iff, decide_eq_false_iff_not, and_true]
    omega
  have opening : c ≠ '(' := by
    rintro rfl
    revert range
    decide
  have closing : c ≠ ')' := by
    rintro rfl
    revert range
    decide
  simp [Definition.isNameChar, visible, opening, closing]

lemma isNameChar_of_mem_encode {text : List Char} {c : Char} (h : c ∈ encode text) :
    Definition.isNameChar c = true := by
  obtain ⟨source, -, hc⟩ := List.mem_flatMap.1 h
  unfold encodeChar at hc
  split at hc
  · rename_i plain
    obtain rfl := List.mem_singleton.1 hc
    exact isNameChar_of_isPlain plain
  · rcases List.mem_cons.1 hc with rfl | hc
    · decide
    · rcases List.mem_cons.1 hc with rfl | digit
      · decide
      · exact isNameChar_of_isPlain (isPlain_of_isDigit (Text.isDigit_of_mem_decimal digit))

/-- A runtime name has no character at which a name ends. -/
lemma isNameChar_of_mem_encodeName {scheme : Scheme} {name : String} {c : Char}
    (h : c ∈ scheme.encodeName name) : Definition.isNameChar c = true := by
  cases scheme with
  | uniform => exact isNameChar_of_mem_encode h
  | namespaceHyphen =>
    rcases List.mem_append.1 h with inModule | inFunction
    · unfold Scheme.hyphenated at inModule
      split at inModule
      · cases inModule
      · obtain ⟨part, -, hc⟩ := List.mem_flatMap.1 inModule
        rcases List.mem_append.1 hc with encoded | hyphen
        · exact isNameChar_of_mem_encode encoded
        · obtain rfl := List.mem_singleton.1 hyphen
          decide
    · exact isNameChar_of_mem_encode inFunction

lemma hyphenated_eq_nil_iff {moduleName : String} :
    Scheme.hyphenated moduleName = [] ↔ moduleName = "" := by
  unfold Scheme.hyphenated
  split
  · rename_i nameless
    simpa using String.isEmpty_iff.1 nameless
  · rename_i named
    obtain ⟨first, others, split⟩ :=
      List.exists_cons_of_ne_nil (Text.segments_ne_nil '.' moduleName.toList)
    rw [split]
    simpa using named

/-- Only the empty name and the dot can have an empty runtime name. -/
lemma encodeName_ne_nil {name : String} (scheme : Scheme) (nonempty : name ≠ "")
    (hdot : name ≠ ".") : scheme.encodeName name ≠ [] := by
  intro empty
  cases scheme with
  | uniform =>
    have text : name.toList = [] := encode_eq_nil_iff.1 empty
    exact nonempty (by simpa using text)
  | namespaceHyphen =>
    obtain ⟨inModule, inFunction⟩ := List.append_eq_nil_iff.1 empty
    have functionName : Name.functionName name = "" := by
      simpa using encode_eq_nil_iff.1 inFunction
    rcases Name.eq_empty_or_dot (hyphenated_eq_nil_iff.1 inModule) functionName with rfl | rfl
    · exact nonempty rfl
    · exact hdot rfl

end RuntimeName

namespace Attribution

section Emitted

variable {runtimeName : String} {definition : Definition} {earlier : List Definition}
  {scheme : Scheme} {line : List Char} {function : Function}

/-- A line that opens a definition of a runtime name is read as one, and no other line is. -/
lemma opens_encodeName_iff {name : String} (nonempty : name ≠ "") (hdot : name ≠ ".") :
    Definition.Opens (scheme.encodeName name) line ↔
      Definition.nameOf? line = some (scheme.encodeName name) := by
  rw [Definition.nameOf?_eq_some_iff]
  constructor
  · intro opens
    exact ⟨encodeName_ne_nil scheme nonempty hdot, fun _ => isNameChar_of_mem_encodeName, opens⟩
  · rintro ⟨-, -, opens⟩
    exact opens

/-- The first definition with exactly the runtime name is found, whatever the others are. -/
lemma find?_append_cons (named : definition.runtimeName = runtimeName)
    (hearlier : ∀ other ∈ earlier, other.runtimeName ≠ runtimeName) (later : List Definition) :
    find? runtimeName (earlier ++ definition :: later) = some earlier.length := by
  refine find?_eq_some_iff.2 (.inl ⟨⟨definition.runtimeName, by simp, named⟩, ?_⟩)
  intro place before name hname same
  rw [List.getElem?_map, List.getElem?_append_left before, List.getElem?_eq_getElem before,
    Option.map_some] at hname
  exact hearlier _ (List.getElem_mem before) ((Option.some.inj hname).trans same)

/-- The first line that is read as the runtime name of a function is where it is attributed to. -/
lemma of?_of_first (annotated : String) {source : String} {before after : List (List Char)}
    {opening : List Char} (split : Text.lines source.toList = before ++ opening :: after)
    (here : Definition.nameOf? opening = some (scheme.encodeName function.name))
    (first : ∀ other ∈ before,
      Definition.nameOf? other ≠ some (scheme.encodeName function.name)) :
    of? (.ofTexts annotated source) scheme function =
      some (toDefinition (.ofTexts annotated source)
        { runtimeName := scheme.runtimeName function.name, line := before.length + 1 }) := by
  have definitions : (Profile.ofTexts annotated source).definitions =
      Definition.ofLines 1 before ++
        { runtimeName := scheme.runtimeName function.name, line := before.length + 1 } ::
          Definition.ofLines (before.length + 1 + 1) after := by
    show Definition.scan source = _
    rw [Definition.scan_eq_ofLines, split, Definition.ofLines_append, Definition.ofLines_cons here,
      Nat.add_comm 1 before.length]
    rfl
  have others : ∀ other ∈ Definition.ofLines 1 before,
      other.runtimeName ≠ scheme.runtimeName function.name := by
    intro other hother same
    obtain ⟨text, htext, named⟩ := Definition.exists_line_of_mem_ofLines hother
    rw [same, toList_runtimeName] at named
    exact first text htext named
  apply of?_eq_some_of_find?
  · rw [definitions]
    exact find?_append_cons (by rfl) others _
  · rw [definitions]
    simp

/-- **An emitted definition is found.**  A function of a dump, other than the dot, is attributed in
every profile whose definitions source has a line that opens a definition of its runtime name.  The
attribution is to a definition with exactly this name, on the first such line, and begins there,
whatever the other lines and the annotations are. -/
theorem of?_emitted (hparsed : Function.ofLine? line = some function) (hdot : function.name ≠ ".")
    (scheme : Scheme) (annotated source : String)
    (hemitted : ∃ opening ∈ Text.lines source.toList,
      Definition.Opens (scheme.encodeName function.name) opening) :
    ∃ before opening after, Text.lines source.toList = before ++ opening :: after ∧
      Definition.Opens (scheme.encodeName function.name) opening ∧
      (∀ other ∈ before, ¬ Definition.Opens (scheme.encodeName function.name) other) ∧
      ∃ attribution,
        of? (.ofTexts annotated source) scheme function = some attribution ∧
        attribution.definition.runtimeName = scheme.runtimeName function.name ∧
        attribution.definition.line = before.length + 1 ∧
        attribution.extent.start = before.length + 1 := by
  have nonempty : function.name ≠ "" := Function.name_ne_empty_of_ofLine? hparsed
  simp only [opens_encodeName_iff nonempty hdot] at hemitted ⊢
  obtain ⟨opening, hfind⟩ : ∃ opening, (Text.lines source.toList).find? (fun text =>
      Definition.nameOf? text = some (scheme.encodeName function.name)) = some opening := by
    rw [← Option.isSome_iff_exists, List.find?_isSome]
    simpa using hemitted
  obtain ⟨here, before, after, split, first⟩ := List.find?_eq_some_iff_append.1 hfind
  simp only [decide_eq_true_eq, Bool.not_eq_true', decide_eq_false_iff_not] at here first
  exact ⟨before, opening, after, split, here, first, _, of?_of_first annotated split here first,
    rfl, rfl, rfl⟩

/-- The definition of a function is found on the second line, behind a tab and a blank, although the
name on the first line ends in its runtime name. -/
theorem of?_emitted_behind_ending :
    let text := "Main.f = [] (%concase A 0)".toList
    let source := "(define NsC-46MainC-46f 0)\n(define\t MainC-46f)"
    ∃ function, Function.ofLine? text = some function ∧
      ∃ attribution, of? (.ofTexts "" source) .uniform function = some attribution ∧
        attribution.definition = { runtimeName := "MainC-46f", line := 2 } := by
  intro text source
  have parsed : Function.ofLine? text =
      some (Function.ofBody "Main.f" " [] (%concase A 0)".toList) := by decide +kernel
  have lines : Text.lines source.toList =
      ["(define NsC-46MainC-46f 0)".toList, "(define\t MainC-46f)".toList] := by decide
  have emitted : Definition.Opens (Scheme.uniform.encodeName "Main.f")
      "(define\t MainC-46f)".toList :=
    ⟨"\t ".toList, ")".toList, by decide, by decide, by decide, by simp⟩
  obtain ⟨before, opening, after, split, opens, -, attribution, found, named, line, -⟩ :=
    of?_emitted parsed (by decide) .uniform "" source ⟨_, by rw [lines]; simp, emitted⟩
  have second : before.length = 1 := by
    cases before with
    | nil =>
      obtain ⟨rfl, -⟩ := List.cons.inj (lines.symm.trans split)
      have read := (opens_encodeName_iff (by decide) (by decide)).1 opens
      exact absurd read (by decide)
    | cons first others =>
      have count := congrArg List.length (lines.symm.trans split)
      simp only [List.length_append, List.length_cons, List.length_nil] at count ⊢
      omega
  refine ⟨_, parsed, attribution, found, ?_⟩
  calc attribution.definition
      = ⟨attribution.definition.runtimeName, attribution.definition.line⟩ := rfl
    _ = { runtimeName := "MainC-46f", line := 2 } := by
      rw [named, line, second]
      decide

end Emitted

end Attribution

end BranchCoverage
