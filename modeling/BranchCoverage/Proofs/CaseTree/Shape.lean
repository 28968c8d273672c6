import BranchCoverage.Proofs.CaseTree.Kind
import BranchCoverage.Proofs.CaseTree.Scan
import BranchCoverage.Proofs.Text.Occurrence
import Mathlib.Data.List.TakeWhile

/-!
# What a body holds, its function has

A body is searched and not parsed, so a line that holds any marks at all gives a function, with
brackets that do not match, alternatives without a word, or a message that is never closed.  This
module says what function it gives, for every line that defines one (`shaped_ofLine?`), in terms of
what stands in the body:

* as many branches as the two marks of alternatives occur, and one more if a crash does;
* in front, the alternatives: of the one kind that the name asks for, and with a word for a pattern;
* behind them, the fallback: with the kind that its message gives a reason for.

A fallback may be a defect of the user's program, so it matters that no path leaves one out or
explains one away.  The message is the one behind the *first* crash (`Text.FirstIn`), read up to the
first quote that is not escaped (`Says`, which is the only message a text says: `says_iff`), and a
kind is excluded for a text that the message holds (`Branch.Kind.explained_ofCrashMessage`).
-/

namespace BranchCoverage

open Text

/-! ## The kind of a fallback -/

namespace Branch.Kind

/-- A message holds a text. -/
def Mentions (message text : String) : Prop :=
  text.toList <:+: message.toList

/-- A kind is one that a fallback with the message may have.  It is none of the kinds of
alternatives; it is excluded for a reason that the message gives; and it is unknown, with exactly
the message, if the message gives no reason. -/
structure Explained (kind : Kind) (message : String) : Prop where
  ne_canonical : kind ≠ .canonical
  ne_compilerGenerated : kind ≠ .compilerGenerated
  isExcluded_iff : kind.isExcluded = true ↔
    Mentions message "No clauses" ∨
      Mentions message "Nat case not covered" ∧ ¬ Mentions message "Unhandled input"
  eq_unknownCrash_iff : ∀ text, kind = .unknownCrash text ↔
    text = message ∧ ¬ Mentions message "No clauses" ∧ ¬ Mentions message "Unhandled input" ∧
      ¬ Mentions message "Nat case not covered"

/-- The three texts are looked for one after the other. -/
lemma ofCrashMessage_cases (message : String) :
    (Mentions message "No clauses" ∧ ofCrashMessage message = .noClauses) ∨
    (¬ Mentions message "No clauses" ∧ Mentions message "Unhandled input" ∧
      ofCrashMessage message = .unhandledInput) ∨
    (¬ Mentions message "No clauses" ∧ ¬ Mentions message "Unhandled input" ∧
      Mentions message "Nat case not covered" ∧ ofCrashMessage message = .optimizerArtifact) ∨
    (¬ Mentions message "No clauses" ∧ ¬ Mentions message "Unhandled input" ∧
      ¬ Mentions message "Nat case not covered" ∧
        ofCrashMessage message = .unknownCrash message) := by
  unfold Mentions
  simp only [ofCrashMessage, ← contains_iff]
  split_ifs with clauses input optimized
  · exact .inl ⟨clauses, rfl⟩
  · exact .inr (.inl ⟨clauses, input, rfl⟩)
  · exact .inr (.inr (.inl ⟨clauses, input, optimized, rfl⟩))
  · exact .inr (.inr (.inr ⟨clauses, input, optimized, rfl⟩))

/-- The kind that is told from a message is explained by the message. -/
theorem explained_ofCrashMessage (message : String) :
    (ofCrashMessage message).Explained message := by
  obtain ⟨notCanonical, notGenerated⟩ := ofCrashMessage_ne message
  refine ⟨notCanonical, notGenerated, ?_, ?_⟩
  · rcases ofCrashMessage_cases message with ⟨clauses, kind⟩ | ⟨clauses, input, kind⟩ |
      ⟨clauses, input, optimized, kind⟩ | ⟨clauses, input, optimized, kind⟩
    · simp [kind, isExcluded, clauses]
    · simp [kind, isExcluded, clauses, input]
    · simp [kind, isExcluded, input, optimized]
    · simp [kind, isExcluded, clauses, optimized]
  · intro text
    rcases ofCrashMessage_cases message with ⟨clauses, kind⟩ | ⟨clauses, input, kind⟩ |
      ⟨clauses, input, optimized, kind⟩ | ⟨clauses, input, optimized, kind⟩
    · simp [kind, clauses]
    · simp [kind, input]
    · simp [kind, optimized]
    · simp [kind, clauses, input, optimized, eq_comm]

end Branch.Kind

namespace CaseTree

/-! ## The message of a text -/

/-- A character of a message as it stands between quotes: behind a backslash, or by itself if it is
neither a quote nor a backslash. -/
structure QuotedChar where
  char : Char
  escaped : Bool
  plain : escaped = false → char ≠ '"' ∧ char ≠ '\\'

def QuotedChar.text (c : QuotedChar) : List Char :=
  if c.escaped then ['\\', c.char] else [c.char]

/-- A text behind an opening quote says a message: it consists of the characters of the message as
they stand between quotes, and then of nothing, of a quote and anything, or of a last backslash. -/
def Says (text message : List Char) : Prop :=
  ∃ (chars : List QuotedChar) (ending : List Char),
    text = chars.flatMap QuotedChar.text ++ ending ∧
      (ending = [] ∨ ending.head? = some '"' ∨ ending = ['\\']) ∧
      message = chars.map QuotedChar.char

section Says

variable {text message : List Char}

lemma quoted_ending {ending : List Char}
    (h : ending = [] ∨ ending.head? = some '"' ∨ ending = ['\\']) : quoted ending = [] := by
  rcases h with rfl | closed | rfl
  · rfl
  · obtain ⟨rest, rfl⟩ := List.head?_eq_some_iff.1 closed
    rfl
  · rfl

lemma quoted_text_append (c : QuotedChar) (rest : List Char) :
    quoted (c.text ++ rest) = c.char :: quoted rest := by
  obtain ⟨char, escaped, plain⟩ := c
  cases escaped with
  | true => rfl
  | false =>
    obtain ⟨quote, backslash⟩ := plain rfl
    have text_eq : QuotedChar.text ⟨char, false, plain⟩ ++ rest = char :: rest := rfl
    rw [text_eq, quoted]
    · exact quote
    · intro same
      exact absurd same backslash
    · intro _ _ same
      exact absurd same backslash

lemma Says.cons (c : QuotedChar) (h : Says text message) :
    Says (c.text ++ text) (c.char :: message) := by
  obtain ⟨chars, ending, rfl, ends, rfl⟩ := h
  exact ⟨c :: chars, ending, by simp, ends, rfl⟩

lemma says_quoted (text : List Char) : Says text (quoted text) := by
  fun_induction quoted text with
  | case1 => exact ⟨[], [], rfl, .inl rfl, rfl⟩
  | case2 rest => exact ⟨[], '"' :: rest, rfl, .inr (.inl rfl), rfl⟩
  | case3 => exact ⟨[], ['\\'], rfl, .inr (.inr rfl), rfl⟩
  | case4 c rest ih => exact ih.cons ⟨c, true, nofun⟩
  | case5 c rest quote single backslash ih =>
    have plain : c ≠ '"' ∧ c ≠ '\\' := by
      refine ⟨quote, ?_⟩
      rintro rfl
      cases rest with
      | nil => exact single rfl rfl
      | cons next rest => exact backslash next rest rfl rfl
    exact ih.cons ⟨c, false, fun _ => plain⟩

/-- **Every text says one message.**  It is the one that is read. -/
theorem says_iff : Says text message ↔ message = quoted text := by
  constructor
  · rintro ⟨chars, ending, rfl, ends, rfl⟩
    induction chars with
    | nil => exact (quoted_ending ends).symm
    | cons c chars ih =>
      rw [List.flatMap_cons, List.append_assoc, quoted_text_append, ← ih, List.map_cons]
  · rintro rfl
    exact says_quoted text

end Says

/-! ## The shape of a function -/

/-- A branch is an alternative of the function called `name`: its kind is the one for the name, and
its pattern is a word. -/
structure IsAlternative (name : String) (branch : Branch) : Prop where
  kind : branch.kind =
    if Name.isGenerated (Name.moduleName name) (Name.functionName name) then .compilerGenerated
    else .canonical
  pattern_ne : branch.pattern ≠ ""
  pattern_plain : ∀ c ∈ branch.pattern.toList, isBlank c = false ∧ c ≠ ')' ∧ c ≠ ']' ∧ c ≠ '['

/-- A branch is the fallback of a body: it has no pattern of its own, and its kind is explained by
the message behind the first crash of the body. -/
structure IsFallback (body : List Char) (branch : Branch) : Prop where
  pattern : branch.pattern = "_"
  kind : ∃ before rest message, FirstIn crashMark body before rest ∧ Says rest message ∧
    branch.kind.Explained (String.ofList message)

namespace Function

/-- The branches of a function are what its body holds: as many alternatives as there are marks of
them, and behind them a fallback if there is a crash. -/
structure Shaped (function : Function) (body : List Char) : Prop where
  length : function.branches.length =
    occurrences constructorMark body + occurrences constantMark body +
      if crashMark <:+: body then 1 else 0
  hasFallback_iff : function.hasFallback = true ↔ crashMark <:+: body
  branches : ∃ (alternatives : List Branch) (fallback : Option Branch),
    function.branches = alternatives ++ fallback.toList ∧
      (fallback.isSome = true ↔ crashMark <:+: body) ∧
      (∀ branch ∈ alternatives, IsAlternative function.name branch) ∧
      ∀ branch ∈ fallback, IsFallback body branch

section Shape

variable {name : String} {body line : List Char} {branch : Branch}

lemma length_patterns (body : List Char) :
    (patterns body).length = occurrences constructorMark body + occurrences constantMark body := by
  have constructors : (afterEach constructorMark body).length = occurrences constructorMark body :=
    length_afterEach (by decide) body
  have constants : (afterEach constantMark body).length = occurrences constantMark body :=
    length_afterEach (by decide) body
  rw [patterns, List.length_map, List.length_append, constructors, constants]

/-- A pattern is a word, whatever stands behind the mark. -/
lemma patternOf_plain (rest : List Char) :
    patternOf rest ≠ "" ∧
      ∀ c ∈ (patternOf rest).toList, isBlank c = false ∧ c ≠ ')' ∧ c ≠ ']' ∧ c ≠ '[' := by
  unfold patternOf
  cases word : (skipTag (trimStart rest)).takeWhile isPatternChar with
  | nil =>
    refine ⟨by decide, ?_⟩
    intro c hc
    obtain rfl : c = '?' := by simpa using hc
    decide
  | cons first others =>
    refine ⟨?_, ?_⟩
    · intro empty
      exact List.cons_ne_nil first others (String.ofList_eq_empty_iff.1 empty)
    · intro c hc
      rw [String.toList_ofList, ← word] at hc
      simpa [isPatternChar, and_assoc] using List.mem_takeWhile_imp hc

lemma isAlternative_of_mem (h : branch ∈ alternatives name body) : IsAlternative name branch := by
  obtain ⟨index, bound, rfl⟩ := List.mem_mapIdx.1 h
  obtain ⟨rest, -, same⟩ := List.mem_map.1 (List.getElem_mem bound)
  have word := patternOf_plain rest
  rw [same] at word
  exact ⟨rfl, word.1, word.2⟩

lemma isSome_crashMessage?_iff : (crashMessage? body).isSome = true ↔ crashMark <:+: body := by
  rw [crashMessage?, Option.isSome_map, isSome_afterFirst?_iff]

lemma isFallback_of_mem (h : branch ∈ fallback? name body) : IsFallback body branch := by
  obtain ⟨_, found, rfl⟩ := Option.map_eq_some_iff.1 h
  obtain ⟨rest, behind, rfl⟩ := Option.map_eq_some_iff.1 found
  obtain ⟨before, first⟩ := firstIn_of_afterFirst? behind
  exact ⟨rfl, before, rest, quoted rest, first, says_quoted rest,
    Branch.Kind.explained_ofCrashMessage _⟩

lemma shaped_ofBody (name : String) (body : List Char) : (ofBody name body).Shaped body := by
  have fallback : (fallback? name body).isSome = true ↔ crashMark <:+: body := by
    rw [fallback?, Option.isSome_map, isSome_crashMessage?_iff]
  have fallbacks : (fallback? name body).toList.length = if crashMark <:+: body then 1 else 0 := by
    cases found : fallback? name body with
    | none => simp [← fallback, found]
    | some branch => simp [← fallback, found]
  refine ⟨?_, fallback, alternatives name body, fallback? name body, rfl, fallback, ?_, ?_⟩
  · have count : (alternatives name body).length = (patterns body).length := List.length_mapIdx
    rw [← length_patterns, ← count, ← fallbacks, ← List.length_append]
    rfl
  · intro branch hb
    exact isAlternative_of_mem hb
  · intro branch hb
    exact isFallback_of_mem hb

/-- **The shape of a function.**  A line that defines a function has a separator, and the function
has the shape of the body behind it, whatever else the line holds. -/
theorem shaped_ofLine? {function : Function} (h : ofLine? line = some function) :
    ∃ front body, nameAndBody? line = some (front, body) ∧
      function.name = String.ofList (trim front) ∧ function.Shaped body := by
  obtain ⟨front, body, separated, -, rfl⟩ := ofLine?_eq_some_iff.1 h
  exact ⟨front, body, separated, rfl, shaped_ofBody _ body⟩

/-- Brackets that do not match, a mark in a tag, a mark without a word, and a message that is never
closed and holds two of the three texts, one of them behind an escaped quote. -/
theorem shaped_ofLine?_noise :
    let body := (" ((%concase[%constcase )]%concase\t" ++
      "(CRASH \"Nat case not covered \\\"Unhandled\\ input").toList
    ∃ function, ofLine? ("Main.f =".toList ++ body) = some function ∧ function.Shaped body ∧
      function.branches.map (fun branch => (branch.pattern, branch.kind)) =
        [("%concase", .canonical), ("(CRASH", .canonical), ("?", .canonical),
          ("_", .unhandledInput)] := by
  intro body
  have separator : nameAndBody? ("Main.f =".toList ++ body) = some ("Main.f ".toList, body) := by
    decide +kernel
  have read : ofLine? ("Main.f =".toList ++ body) = some (ofBody "Main.f" body) :=
    ofLine?_eq_some_iff.2 ⟨_, _, separator, by decide, rfl⟩
  obtain ⟨front, behind, separated, -, shaped⟩ := shaped_ofLine? read
  obtain ⟨-, rfl⟩ := Prod.mk.inj (Option.some.inj (separator.symm.trans separated))
  exact ⟨_, read, shaped, by decide +kernel⟩

end Shape

end Function

end CaseTree

end BranchCoverage
