import BranchCoverage.Proofs.CaseTree.Scan

/-!
# Definition lines read back

A definition line is a text that three searches go over, with nothing but its spelling to tell their
finds apart.  This module writes lines of the form

```text
f = [{arg:0}]: (%case !{arg:0} [(%concase [tag] A 0 [] 1), (%constcase 7 0 [] 1)] Just (CRASH "m"))
```

from their parts and shows that `Function.ofLine?` reads all of them back
(`Written.ofLine?_text`): the constructor tokens in their order, then the constant tokens in theirs,
then the fallback with the message as it was before it was escaped.

What keeps the finds apart is that each search steps over the parts it is not made for.  The mark of
the one kind of alternative begins nowhere in an alternative of the other kind, or behind the mark
of its own (`avoids_text_of_ne`, `avoids_behind`); the crash begins in no alternative at all; and a
message may say anything except the two marks, also what looks like a crash or a closing quote.
-/

namespace BranchCoverage.CaseTree

open Text

namespace Written

/-! ## The parts of a line -/

/-- The two kinds of alternative of a case expression. -/
inductive Kind where
  | constructor
  | constant
  deriving DecidableEq, Repr

/-- The mark in front of an alternative. -/
def Kind.mark : Kind → List Char
  | constructor => constructorMark
  | constant => constantMark

/-- An alternative that can be told from what stands around it. -/
structure Alternative where
  kind : Kind
  tag : Option (List Char)
  token : List Char
  tag_plain : ∀ text ∈ tag, ∀ c ∈ text, c ≠ ']' ∧ c ≠ '%' ∧ c ≠ '('
  token_ne_nil : token ≠ []
  token_plain : ∀ c ∈ token, isBlank c = false ∧ c ∉ "()[]%".toList

/-- A line with a name that can be told from the separator, and a message without a mark. -/
structure Line where
  name : List Char
  alternatives : List Alternative
  crash : Option (List Char)
  name_ne_nil : name ≠ []
  name_plain : ∀ c ∈ name, isBlank c = false ∧ c ≠ '='
  crash_plain : ∀ message ∈ crash, ¬ constructorMark <:+: message ∧ ¬ constantMark <:+: message

namespace Alternative

/-- What is written behind the mark of an alternative. -/
def behind (alternative : Alternative) : List Char :=
  match alternative.tag with
  | none => ' ' :: (alternative.token ++ " 0 [] 1)".toList)
  | some tag => ' ' :: '[' :: (tag ++ ']' :: ' ' :: (alternative.token ++ " 0 [] 1)".toList))

/-- An alternative as it is written. -/
def text (alternative : Alternative) : List Char :=
  '(' :: (alternative.kind.mark ++ alternative.behind)

end Alternative

/-- The tokens of the alternatives of a kind, in their order. -/
def tokens (kind : Kind) (alternatives : List Alternative) : List String :=
  (alternatives.filter (·.kind = kind)).map fun alternative => .ofList alternative.token

namespace Line

/-- The fallback of a line as it is written. -/
def fallbackText : Option (List Char) → List Char
  | none => "Nothing)".toList
  | some message => "Just ".toList ++ (crashMark ++ (escape message ++ "\"))".toList))

lemma fallbackText_some (message : List Char) :
    fallbackText (some message) =
      "Just ".toList ++ (crashMark ++ (escape message ++ "\"))".toList)) := rfl

/-- What is written in front of the alternatives of every line. -/
def opening : List Char :=
  " [\x7barg:0\x7d]: (%case !\x7barg:0\x7d [".toList

lemma opening_eq : opening = " [\x7barg:0\x7d]: (%case !\x7barg:0\x7d [".toList := rfl

/-- What is written behind the separator of a line. -/
def body (line : Line) : List Char :=
  opening ++
    (join ", ".toList (line.alternatives.map Alternative.text) ++
      ("] ".toList ++ fallbackText line.crash))

/-- A line as it is written. -/
def text (line : Line) : List Char :=
  line.name ++ " =".toList ++ line.body

/-- The function that a line stands for. -/
def function (line : Line) : Function :=
  let name := String.ofList line.name
  let patterns := tokens .constructor line.alternatives ++ tokens .constant line.alternatives
  let id (index : Nat) : Branch.Id :=
    { moduleName := Name.moduleName name
      functionName := Name.functionName name
      caseIndex := 0
      branchIndex := index }
  let reachable := patterns.mapIdx fun index pattern =>
    { id := id index, kind := Function.reachableKind name, pattern : Branch }
  let fallback := line.crash.map fun message =>
    { id := id patterns.length, kind := .ofCrashMessage (.ofList message), pattern := "_" : Branch }
  { name, branches := reachable ++ fallback.toList, hasFallback := line.crash.isSome }

end Line

/-! ## Stepping over an alternative -/

section Alternative

variable {kind : Kind} (alternative : Alternative)

lemma head?_mark (kind : Kind) : kind.mark.head? = some '%' := by
  cases kind <;> rfl

lemma mark_ne_nil (kind : Kind) : kind.mark ≠ [] := by
  cases kind <;> decide

lemma notMem_behind {c : Char} (h : c = '%' ∨ c = '(') : c ∉ alternative.behind := by
  have token : c ∉ alternative.token := by
    intro hc
    have plain := (alternative.token_plain c hc).2
    rcases h with rfl | rfl
    · exact absurd (by decide) plain
    · exact absurd (by decide) plain
  have ending : c ≠ ' ' ∧ c ≠ '[' ∧ c ≠ ']' ∧ c ∉ " 0 [] 1)".toList := by
    rcases h with rfl | rfl <;> decide
  have tag : ∀ tag ∈ alternative.tag, c ∉ tag := by
    intro tag htag hc
    have plain := alternative.tag_plain tag htag c hc
    rcases h with rfl | rfl
    · exact plain.2.1 rfl
    · exact plain.2.2 rfl
  rw [Alternative.behind]
  split
  · simp only [List.mem_cons, List.mem_append, not_or]
    exact ⟨ending.1, token, ending.2.2.2⟩
  · rename_i htag
    simp only [List.mem_cons, List.mem_append, not_or]
    exact ⟨ending.1, ending.2.1, tag _ htag, ending.2.2.1, ending.1, token, ending.2.2.2⟩

lemma avoids_behind (kind : Kind) : Avoids kind.mark alternative.behind :=
  avoids_of_notMem (head?_mark kind) (notMem_behind alternative (.inl rfl))

lemma avoids_text_of_ne (h : alternative.kind ≠ kind) : Avoids kind.mark alternative.text := by
  have opening : Avoids kind.mark ('(' :: alternative.kind.mark) := by
    revert h
    cases alternative.kind <;> cases kind <;> decide
  exact opening.append (avoids_behind alternative kind)

lemma avoids_crashMark_text : Avoids crashMark alternative.text := by
  have opening : Avoids crashMark ('(' :: alternative.kind.mark) := by
    cases alternative.kind <;> decide
  have behind : Avoids crashMark alternative.behind :=
    avoids_of_notMem rfl (notMem_behind alternative (.inr rfl))
  exact opening.append behind

/-- The pattern behind the mark of an alternative is its token. -/
lemma patternOf_behind (rest : List Char) :
    patternOf (alternative.behind ++ rest) = .ofList alternative.token := by
  have word : ∀ c ∈ alternative.token, isPatternChar c = true := by
    intro c hc
    obtain ⟨blank, plain⟩ := alternative.token_plain c hc
    simp only [String.reduceToList, List.mem_cons, not_or] at plain
    simp [isPatternChar, blank, plain]
  have untagged : patternOf (' ' :: (alternative.token ++ ' ' :: ("0 [] 1)".toList ++ rest))) =
      .ofList alternative.token :=
    patternOf_word alternative.token_ne_nil word rfl
  rw [Alternative.behind]
  split
  · simpa using untagged
  · rename_i tag htag
    have closed : ']' ∉ tag := by
      intro hc
      exact (alternative.tag_plain tag htag _ hc).1 rfl
    have tagged : patternOf (' ' :: '[' :: (tag ++ ']' :: ' ' ::
        (alternative.token ++ ' ' :: ("0 [] 1)".toList ++ rest)))) = .ofList alternative.token :=
      patternOf_tag_word closed alternative.token_ne_nil word rfl
    simpa using tagged

lemma tokens_cons (kind : Kind) (alternatives : List Alternative) :
    tokens kind (alternative :: alternatives) =
      (if alternative.kind = kind then [.ofList alternative.token] else []) ++
        tokens kind alternatives := by
  by_cases h : alternative.kind = kind
  · simp [tokens, h]
  · simp [tokens, h]

/-- Searching for a mark, an alternative gives its token if the mark is its own. -/
lemma map_afterEach_text (kind : Kind) (rest : List Char) :
    (afterEach kind.mark (alternative.text ++ rest)).map patternOf =
      (if alternative.kind = kind then [String.ofList alternative.token] else []) ++
        (afterEach kind.mark rest).map patternOf := by
  by_cases h : alternative.kind = kind
  · subst h
    have bracket : Avoids alternative.kind.mark ['('] := by
      cases alternative.kind <;> decide
    have tail : Avoids alternative.kind.mark alternative.kind.mark.tail := by
      cases alternative.kind <;> decide
    have text_eq : alternative.text ++ rest =
        ['('] ++ (alternative.kind.mark ++ (alternative.behind ++ rest)) := by
      simp [Alternative.text]
    rw [text_eq, afterEach_append bracket, afterEach_mark (mark_ne_nil _) tail,
      afterEach_append (avoids_behind alternative _), List.map_cons, patternOf_behind, if_pos rfl]
    rfl
  · rw [afterEach_append (avoids_text_of_ne alternative h), if_neg h, List.nil_append]

end Alternative

/-! ## Stepping over a line -/

section Line

variable (line : Line)

lemma map_afterEach_join (kind : Kind) (alternatives : List Alternative) (rest : List Char) :
    (afterEach kind.mark
        (join ", ".toList (alternatives.map Alternative.text) ++ rest)).map patternOf =
      tokens kind alternatives ++ (afterEach kind.mark rest).map patternOf := by
  have comma : Avoids kind.mark ", ".toList := by
    cases kind <;> decide
  have behindFirst (others : List Alternative) :
      (afterEach kind.mark
          ((others.map Alternative.text).flatMap (", ".toList ++ ·) ++ rest)).map patternOf =
        tokens kind others ++ (afterEach kind.mark rest).map patternOf := by
    induction others with
    | nil => rfl
    | cons alternative others ih =>
      rw [List.map_cons, List.flatMap_cons, List.append_assoc, List.append_assoc,
        afterEach_append comma, map_afterEach_text, ih, tokens_cons, List.append_assoc]
  cases alternatives with
  | nil => rfl
  | cons alternative others =>
    rw [List.map_cons, join_cons, List.append_assoc, map_afterEach_text, behindFirst, tokens_cons,
      List.append_assoc]

lemma avoids_fallbackText (kind : Kind) : Avoids kind.mark (Line.fallbackText line.crash) := by
  cases hcrash : line.crash with
  | none => cases kind <;> decide +kernel
  | some message =>
    have plain : ¬ kind.mark <:+: message := by
      cases kind
      · exact (line.crash_plain message hcrash).1
      · exact (line.crash_plain message hcrash).2
    have opening : Avoids kind.mark ("Just ".toList ++ crashMark) := by
      cases kind <;> decide
    have written : Avoids kind.mark (escape message ++ ['"']) := by
      apply avoids_escape _ _ plain
      · cases kind <;> decide
      · cases kind <;> decide
    have closing : Avoids kind.mark "))".toList := by
      cases kind <;> decide
    have parts := (opening.append written).append closing
    rw [Line.fallbackText_some]
    simpa using parts

/-- Searching for a mark, the body of a line gives the tokens of its kind. -/
lemma map_afterEach_body (kind : Kind) :
    (afterEach kind.mark line.body).map patternOf = tokens kind line.alternatives := by
  have opening : Avoids kind.mark Line.opening := by
    cases kind <;> decide +kernel
  have bracket : Avoids kind.mark "] ".toList := by
    cases kind <;> decide
  rw [Line.body, afterEach_append opening, map_afterEach_join,
    afterEach_eq_nil (bracket.append (avoids_fallbackText line kind)), List.map_nil,
    List.append_nil]

lemma patterns_body :
    patterns line.body =
      tokens .constructor line.alternatives ++ tokens .constant line.alternatives := by
  rw [patterns, List.map_append]
  exact congrArg₂ _ (map_afterEach_body line .constructor) (map_afterEach_body line .constant)

/-- The message of the fallback of a line is read as it was before it was escaped. -/
lemma crashMessage?_body : crashMessage? line.body = line.crash.map String.ofList := by
  have alternatives :
      Avoids crashMark (join ", ".toList (line.alternatives.map Alternative.text)) := by
    apply avoids_join (by decide)
    intro text htext
    obtain ⟨alternative, -, rfl⟩ := List.mem_map.1 htext
    exact avoids_crashMark_text alternative
  have opening : Avoids crashMark Line.opening := by decide +kernel
  rw [Line.body]
  cases line.crash with
  | none =>
    have closing : Avoids crashMark ("] ".toList ++ "Nothing)".toList) := by decide +kernel
    exact crashMessage?_eq_none (opening.append (alternatives.append closing))
  | some message =>
    have bracket : Avoids crashMark ("] ".toList ++ "Just ".toList) := by decide
    have read := crashMessage?_escape (opening.append (alternatives.append bracket)) message
      "))".toList
    rw [Line.fallbackText_some]
    simpa using read

lemma nameAndBody?_text : nameAndBody? line.text = some (line.name ++ [' '], line.body) := by
  have unsigned : '=' ∉ line.name ++ [' '] := by
    intro h
    rcases List.mem_append.1 h with h | h
    · exact (line.name_plain _ h).2 rfl
    · exact absurd h (by decide)
  have behind : (trimStart line.body).head? ≠ some '=' := by
    simp [Line.body, Line.opening_eq, trimStart, isBlank, blankRanges]
  have separated := nameAndBody?_sign unsigned behind
  simpa [Line.text] using separated

lemma trim_name : trim (line.name ++ [' ']) = line.name := by
  apply trim_append_of_isBlankText _ _ rfl
  · intro c hc
    exact (line.name_plain c (List.mem_of_mem_head? hc)).1
  · intro c hc
    exact (line.name_plain c (List.mem_of_mem_getLast? hc)).1

/-- **Reading undoes writing.**  A written line is read as the function that it stands for. -/
theorem ofLine?_text : Function.ofLine? line.text = some line.function := by
  have read : Function.ofLine? line.text =
      some (Function.ofBody (String.ofList line.name) line.body) := by
    rw [Function.ofLine?, nameAndBody?_text]
    simp only [trim_name]
    split
    · rename_i hname
      exact absurd hname line.name_ne_nil
    · rfl
  rw [read, Function.ofBody, Function.alternatives, Function.fallback?, patterns_body,
    crashMessage?_body, Option.map_map, Option.isSome_map]
  rfl

/-- Both kinds of alternative, and a message that says what a fallback ends and begins with. -/
theorem ofLine?_text_mixed :
    ∃ line : Line,
      line.text = ("Main.mixed = [\x7barg:0\x7d]: (%case !\x7barg:0\x7d " ++
        "[(%constcase 0 0 [] 1), (%concase [cons] Main.Z 0 [] 1)] " ++
        "Just (CRASH \"a\\\")) = (CRASH \\\"b\"))").toList ∧
      Function.ofLine? line.text = some line.function ∧
      line.function.branches.map Branch.pattern = ["Main.Z", "0", "_"] ∧
      line.function.branches.map Branch.kind =
        [.canonical, .canonical, .unknownCrash "a\")) = (CRASH \"b"] := by
  let zero : Alternative :=
    { kind := .constant
      tag := none
      token := "0".toList
      tag_plain := by simp
      token_ne_nil := by decide
      token_plain := by simp [isBlank, blankRanges] }
  let named : Alternative :=
    { kind := .constructor
      tag := some "cons".toList
      token := "Main.Z".toList
      tag_plain := by simp
      token_ne_nil := by decide
      token_plain := by simp [isBlank, blankRanges] }
  let line : Line :=
    { name := "Main.mixed".toList
      alternatives := [zero, named]
      crash := some "a\")) = (CRASH \"b".toList
      name_ne_nil := by decide
      name_plain := by simp [isBlank, blankRanges]
      crash_plain := by decide +kernel }
  exact ⟨line, by decide +kernel, ofLine?_text line, by decide +kernel, by decide +kernel⟩

end Line

end Written

end BranchCoverage.CaseTree
