import BranchCoverage.CaseTree.DefinitionLine
import BranchCoverage.Proofs.Text.Search
import Mathlib.Data.List.TakeWhile

/-!
# What the scanners find

The three scans of a definition line, each on a text that is put together from parts: where the name
is separated from the body (`nameAndBody?_run`), which pattern stands behind a mark
(`patternOf_word`, `patternOf_tag_word`), and which message stands behind the crash of a fallback
(`crashMessage?_escape`).

A message is written between quotes with a backslash in front of each quote and each backslash
(`escape`).  Reading takes the backslashes off (`quoted_escape`), and escaping brings no mark about
that the message does not hold (`avoids_escape`), because the marks hold neither a quote nor a
backslash.
-/

namespace BranchCoverage.CaseTree

open Text

/-! ## The separator -/

lemma notMem_of_isBlankText {blanks : List Char} (h : isBlankText blanks = true) :
    '=' ∉ blanks := by
  intro hmem
  exact absurd (List.all_eq_true.1 h _ hmem) (by decide)

/-- A line without an equals sign has no separator. -/
lemma nameAndBody?_eq_none {line : List Char} (h : '=' ∉ line) : nameAndBody? line = none := by
  have unsigned : line.dropWhile (· ≠ '=') = [] := by
    rw [List.dropWhile_eq_nil_iff]
    intro c hc
    refine decide_eq_true ?_
    rintro rfl
    exact h hc
  unfold nameAndBody?
  rw [unsigned]

/-- The first run of equals signs gives its last sign away, unless another one follows it behind
blanks. -/
theorem nameAndBody?_run {before rest : List Char} (hbefore : '=' ∉ before) (count : Nat)
    (hrest : rest.head? ≠ some '=') :
    nameAndBody? (before ++ (List.replicate (count + 1) '=' ++ rest)) =
      match trimStart rest with
      | '=' :: body => some (before ++ List.replicate (count + 1) '=', body)
      | _ => some (before ++ List.replicate count '=', rest) := by
  have inside : ∀ c ∈ before, decide (c ≠ '=') = true := by
    intro c hc
    refine decide_eq_true ?_
    rintro rfl
    exact hbefore hc
  have signs : ∀ c ∈ List.replicate (count + 1) '=', decide (c = '=') = true := by
    intro c hc
    simpa using List.eq_of_mem_replicate hc
  have runEnds : rest.takeWhile (· = '=') = [] ∧ rest.dropWhile (· = '=') = rest := by
    cases rest with
    | nil => exact ⟨rfl, rfl⟩
    | cons c rest =>
      have hc : ¬ c = '=' := by simpa using hrest
      simp [hc]
  have dropped : (before ++ (List.replicate (count + 1) '=' ++ rest)).dropWhile (· ≠ '=') =
      '=' :: (List.replicate count '=' ++ rest) := by
    rw [List.dropWhile_append_of_pos inside]
    simp [List.replicate_succ]
  have taken : (before ++ (List.replicate (count + 1) '=' ++ rest)).takeWhile (· ≠ '=') =
      before := by
    rw [List.takeWhile_append_of_pos inside]
    simp [List.replicate_succ]
  have signs_eq : '=' :: (List.replicate count '=' ++ rest) =
      List.replicate (count + 1) '=' ++ rest := by
    rw [List.replicate_succ, List.cons_append]
  have run : ('=' :: (List.replicate count '=' ++ rest)).takeWhile (· = '=') =
      List.replicate (count + 1) '=' := by
    rw [signs_eq, List.takeWhile_append_of_pos signs, runEnds.1, List.append_nil]
  have behind : ('=' :: (List.replicate count '=' ++ rest)).dropWhile (· = '=') = rest := by
    rw [signs_eq, List.dropWhile_append_of_pos signs, runEnds.2]
  rw [nameAndBody?, dropped]
  simp only [taken, run, behind]
  cases trimmed : trimStart rest with
  | nil => simp [List.replicate_succ']
  | cons c body =>
    by_cases hc : c = '='
    · subst hc
      rfl
    · simp [hc, List.replicate_succ']

/-- A single equals sign separates, if no other one follows it behind blanks. -/
theorem nameAndBody?_sign {before rest : List Char} (hbefore : '=' ∉ before)
    (hrest : (trimStart rest).head? ≠ some '=') :
    nameAndBody? (before ++ '=' :: rest) = some (before, rest) := by
  have hhead : rest.head? ≠ some '=' := by
    intro h
    have unblank : ∀ c ∈ rest.head?, isBlank c = false := by
      intro c hc
      obtain rfl : '=' = c := by simpa [h] using hc
      rfl
    exact hrest (by rwa [trimStart_of_head? unblank])
  have separated := nameAndBody?_run hbefore 0 hhead
  rw [List.replicate_zero, List.append_nil] at separated
  refine separated.trans ?_
  split
  · rename_i body hbody
    exact absurd (by rw [hbody, List.head?_cons]) hrest
  · rfl

/-! ## Patterns -/

section Pattern

variable {word rest : List Char} {stop : Char}

lemma patternOf_of_skipTag {text : List Char} (hne : word ≠ [])
    (hword : ∀ c ∈ word, isPatternChar c = true) (hstop : isPatternChar stop = false)
    (hskip : skipTag (trimStart text) = word ++ stop :: rest) :
    patternOf text = String.ofList word := by
  rw [patternOf, hskip, takeWhile_append_of_stop hword (by simpa using hstop)]
  obtain ⟨c, others, rfl⟩ := List.exists_cons_of_ne_nil hne
  rfl

lemma isBlank_of_isPatternChar {c : Char} (h : isPatternChar c = true) : isBlank c = false := by
  simp only [isPatternChar, Bool.and_eq_true, Bool.not_eq_true'] at h
  exact h.1.1.1

lemma trimStart_word (hne : word ≠ []) (hword : ∀ c ∈ word, isPatternChar c = true) :
    trimStart (word ++ rest) = word ++ rest := by
  apply trimStart_of_head?
  intro c hc
  obtain ⟨first, others, rfl⟩ := List.exists_cons_of_ne_nil hne
  obtain rfl : first = c := by simpa using hc
  exact isBlank_of_isPatternChar (hword first List.mem_cons_self)

/-- The pattern behind a mark is the word behind the mark. -/
theorem patternOf_word (hne : word ≠ []) (hword : ∀ c ∈ word, isPatternChar c = true)
    (hstop : isPatternChar stop = false) :
    patternOf (' ' :: (word ++ stop :: rest)) = String.ofList word := by
  have untagged : skipTag (word ++ stop :: rest) = word ++ stop :: rest := by
    obtain ⟨first, others, rfl⟩ := List.exists_cons_of_ne_nil hne
    have unbracketed : first ≠ '[' := by
      rintro rfl
      exact absurd (hword '[' List.mem_cons_self) (by decide)
    rw [skipTag]
    simpa using unbracketed
  apply patternOf_of_skipTag hne hword hstop
  rw [trimStart_cons_of_isBlank rfl, trimStart_word hne hword, untagged]

/-- A tag between the mark and the word is passed over. -/
theorem patternOf_tag_word {tag : List Char} (htag : ']' ∉ tag) (hne : word ≠ [])
    (hword : ∀ c ∈ word, isPatternChar c = true) (hstop : isPatternChar stop = false) :
    patternOf (' ' :: '[' :: (tag ++ ']' :: ' ' :: (word ++ stop :: rest))) =
      String.ofList word := by
  apply patternOf_of_skipTag hne hword hstop
  have bracket : trimStart (' ' :: '[' :: (tag ++ ']' :: ' ' :: (word ++ stop :: rest))) =
      '[' :: (tag ++ ']' :: ' ' :: (word ++ stop :: rest)) := rfl
  have opened : Avoids [']'] ('[' :: tag) :=
    avoids_of_notMem rfl (by simpa using htag)
  have closed : afterFirst? [']'] ('[' :: (tag ++ ']' :: ' ' :: (word ++ stop :: rest))) =
      some (' ' :: (word ++ stop :: rest)) :=
    (afterFirst?_append opened _).trans (afterFirst?_mark [']'] _)
  rw [bracket, skipTag, closed]
  rw [Option.map_some, Option.getD_some, trimStart_cons_of_isBlank rfl, trimStart_word hne hword]

end Pattern

/-! ## Messages between quotes -/

/-- A message as it is written between quotes. -/
def escape (message : List Char) : List Char :=
  message.flatMap fun c => if c = '"' ∨ c = '\\' then ['\\', c] else [c]

lemma escape_cons_of_special {c : Char} (h : c = '"' ∨ c = '\\') (message : List Char) :
    escape (c :: message) = '\\' :: c :: escape message := by
  simp [escape, h]

lemma escape_cons_of_not_special {c : Char} (h : ¬ (c = '"' ∨ c = '\\')) (message : List Char) :
    escape (c :: message) = c :: escape message := by
  simp [escape, h]

/-- Reading what was written between quotes gives the message back. -/
theorem quoted_escape (message rest : List Char) :
    quoted (escape message ++ '"' :: rest) = message := by
  induction message with
  | nil => rfl
  | cons c message ih =>
    by_cases h : c = '"' ∨ c = '\\'
    · rw [escape_cons_of_special h, List.cons_append, List.cons_append, quoted, ih]
    · rw [escape_cons_of_not_special h, List.cons_append]
      have plain : c ≠ '"' ∧ c ≠ '\\' := not_or.1 h
      rw [quoted, ih]
      · exact plain.1
      · intro hc
        exact absurd hc plain.2
      · intro _ _ hc
        exact absurd hc plain.2

section Escape

variable {mark message : List Char}

/-- What begins an escaped message, and holds no quote and no backslash, begins the message. -/
lemma prefix_of_prefix_escape (hquote : '"' ∉ mark) (hbackslash : '\\' ∉ mark)
    {rest : List Char} (h : mark <+: escape message ++ '"' :: rest) : mark <+: message := by
  induction message generalizing mark with
  | nil =>
    cases mark with
    | nil => exact List.nil_prefix
    | cons first mark =>
      have first_eq : first = '"' := (List.cons_prefix_cons.1 h).1
      exact absurd (first_eq ▸ List.mem_cons_self) hquote
  | cons c message ih =>
    cases mark with
    | nil => exact List.nil_prefix
    | cons first mark =>
      by_cases special : c = '"' ∨ c = '\\'
      · rw [escape_cons_of_special special] at h
        have first_eq : first = '\\' := (List.cons_prefix_cons.1 h).1
        exact absurd (first_eq ▸ List.mem_cons_self) hbackslash
      · rw [escape_cons_of_not_special special] at h
        obtain ⟨rfl, htail⟩ := List.cons_prefix_cons.1 h
        have hquote' := List.not_mem_of_not_mem_cons hquote
        have hbackslash' := List.not_mem_of_not_mem_cons hbackslash
        exact List.cons_prefix_cons.2 ⟨rfl, ih hquote' hbackslash' htail⟩

/-- A mark that a message does not hold begins nowhere in the written message, and not in what
follows its closing quote either. -/
lemma avoids_escape (hquote : '"' ∉ mark) (hbackslash : '\\' ∉ mark)
    (h : ¬ mark <:+: message) : Avoids mark (escape message ++ ['"']) := by
  have hmark : mark ≠ [] := by
    rintro rfl
    exact h (List.nil_infix)
  induction message with
  | nil => exact avoids_cons_of_notMem hquote hmark trivial
  | cons c message ih =>
    have rest := ih fun occurs => h (occurs.trans (List.suffix_cons c message).isInfix)
    by_cases special : c = '"' ∨ c = '\\'
    · have hc : c ∉ mark := by
        rcases special with rfl | rfl
        · exact hquote
        · exact hbackslash
      rw [escape_cons_of_special special]
      exact avoids_cons_of_notMem hbackslash hmark (avoids_cons_of_notMem hc hmark rest)
    · have text_eq : escape (c :: message) ++ ['"'] = c :: (escape message ++ ['"']) := by
        rw [escape_cons_of_not_special special, List.cons_append]
      rw [text_eq]
      refine ⟨⟨?_, ?_⟩, rest⟩
      · intro begins
        rw [← text_eq] at begins
        exact h (prefix_of_prefix_escape hquote hbackslash begins).isInfix
      · intro begins
        exact hquote (begins.subset (by simp))

end Escape

lemma crashMessage?_eq_none {body : List Char} (h : Avoids crashMark body) :
    crashMessage? body = none := by
  rw [crashMessage?, afterFirst?_eq_none (by decide) h, Option.map_none]

/-- The message of a fallback is the one that was written, if no other crash stands in front of
it. -/
theorem crashMessage?_escape {front : List Char} (h : Avoids crashMark front)
    (message rest : List Char) :
    crashMessage? (front ++ (crashMark ++ (escape message ++ '"' :: rest))) =
      some (String.ofList message) := by
  rw [crashMessage?, afterFirst?_append h, afterFirst?_mark, Option.map_some, quoted_escape]

end BranchCoverage.CaseTree
