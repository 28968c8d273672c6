import BranchCoverage.Text.Search
import Mathlib.Data.List.Basic
import Mathlib.Tactic.Common

/-!
# Where a mark can begin

A search for a mark goes through a text place by place, so a text that is put together from parts is
searched part by part, as long as no occurrence begins in one part and ends in another.  `Avoids`
says of a part that no occurrence begins in it *whatever stands behind it*: at each of its places,
neither the mark nor the remainder of the part continues the other.  That is decidable, it is closed
under concatenation (`Avoids.append`), and a search passes over such a part as if it were not there
(`afterEach_append`, `afterFirst?_append`).

A search with a recogniser takes what it finds whole, and goes on behind it
(`findEach_append_of_eq_some`).  So what it still has in front of it is always the end of the text,
and whatever it finds stands in the text (`exists_suffix_of_mem_findEachFrom`).

The same question about a run of characters of one kind, as a name or a word is one, has a simple
answer: it ends in front of the first character of another kind (`takeWhile_append_of_stop`).

A separator of one character has nothing of this to watch: between two texts it cuts between the
pieces of the one and those of the other (`segments_append_cons`).
-/

namespace BranchCoverage.Text

/-- No occurrence of `mark` begins in the text, whatever stands behind the text. -/
def Avoids (mark : List Char) : List Char → Prop
  | [] => True
  | c :: rest => (¬ mark <+: c :: rest ∧ ¬ c :: rest <+: mark) ∧ Avoids mark rest

instance (mark : List Char) : (text : List Char) → Decidable (Avoids mark text)
  | [] => inferInstanceAs (Decidable True)
  | c :: rest =>
    have : Decidable (Avoids mark rest) := instDecidableAvoids mark rest
    inferInstanceAs (Decidable ((¬ mark <+: c :: rest ∧ ¬ c :: rest <+: mark) ∧ Avoids mark rest))

section Avoids

variable {mark text rest : List Char} {c : Char}

lemma not_prefix_append_of_clash (clash : ¬ mark <+: text ∧ ¬ text <+: mark) (rest : List Char) :
    ¬ mark <+: text ++ rest := by
  intro h
  rcases List.prefix_or_prefix_of_prefix h (List.prefix_append text rest) with h | h
  · exact clash.1 h
  · exact clash.2 h

lemma Avoids.append (htext : Avoids mark text) (hrest : Avoids mark rest) :
    Avoids mark (text ++ rest) := by
  induction text with
  | nil => exact hrest
  | cons c text ih =>
    obtain ⟨clash, htext⟩ := htext
    refine ⟨⟨not_prefix_append_of_clash clash rest, ?_⟩, ih htext⟩
    intro h
    exact clash.2 ((List.prefix_append (c :: text) rest).trans h)

lemma avoids_cons_of_notMem (hc : c ∉ mark) (hmark : mark ≠ []) (h : Avoids mark text) :
    Avoids mark (c :: text) := by
  refine ⟨⟨?_, ?_⟩, h⟩
  · intro begins
    obtain ⟨first, others, rfl⟩ := List.exists_cons_of_ne_nil hmark
    exact hc ((List.cons_prefix_cons.1 begins).1 ▸ List.mem_cons_self)
  · intro begins
    exact hc (begins.subset List.mem_cons_self)

/-- A text without the first character of a mark avoids the mark. -/
lemma avoids_of_notMem {first : Char} (hmark : mark.head? = some first) (h : first ∉ text) :
    Avoids mark text := by
  obtain ⟨others, rfl⟩ := List.head?_eq_some_iff.1 hmark
  induction text with
  | nil => trivial
  | cons c text ih =>
    obtain ⟨hc, htext⟩ := List.ne_and_not_mem_of_not_mem_cons h
    refine ⟨⟨?_, ?_⟩, ih htext⟩
    · intro begins
      exact hc (List.cons_prefix_cons.1 begins).1
    · intro begins
      exact hc (List.cons_prefix_cons.1 begins).1.symm

lemma isPrefixOf?_eq_none (h : ¬ mark <+: text) : mark.isPrefixOf? text = none := by
  cases found : mark.isPrefixOf? text with
  | none => rfl
  | some behind => exact absurd ⟨behind, List.isPrefixOf?_eq_some_iff_append_eq.1 found⟩ h

lemma isPrefixOf?_append_self (mark rest : List Char) :
    mark.isPrefixOf? (mark ++ rest) = some rest :=
  List.isPrefixOf?_eq_some_iff_append_eq.2 rfl

/-! ## Searching past a part -/

lemma afterEach_append (h : Avoids mark text) (rest : List Char) :
    afterEach mark (text ++ rest) = afterEach mark rest := by
  induction text with
  | nil => rfl
  | cons c text ih =>
    obtain ⟨clash, htext⟩ := h
    have here := isPrefixOf?_eq_none (not_prefix_append_of_clash clash rest)
    rw [List.cons_append] at here ⊢
    rw [afterEach, here, ih htext]

lemma afterFirst?_append (h : Avoids mark text) (rest : List Char) :
    afterFirst? mark (text ++ rest) = afterFirst? mark rest := by
  induction text with
  | nil => rfl
  | cons c text ih =>
    obtain ⟨clash, htext⟩ := h
    have here := isPrefixOf?_eq_none (not_prefix_append_of_clash clash rest)
    rw [List.cons_append] at here ⊢
    rw [afterFirst?, here, ih htext]

lemma afterEach_eq_nil (h : Avoids mark text) : afterEach mark text = [] := by
  have passed := afterEach_append h []
  rwa [List.append_nil] at passed

lemma afterFirst?_eq_none (hmark : mark ≠ []) (h : Avoids mark text) :
    afterFirst? mark text = none := by
  have passed := afterFirst?_append h []
  rw [List.append_nil] at passed
  rw [passed, afterFirst?]
  apply isPrefixOf?_eq_none
  rwa [List.prefix_nil]

/-! ## Searching at an occurrence -/

lemma afterEach_mark (hmark : mark ≠ []) (h : Avoids mark mark.tail) (rest : List Char) :
    afterEach mark (mark ++ rest) = rest :: afterEach mark rest := by
  have here := isPrefixOf?_append_self mark rest
  cases mark with
  | nil => exact absurd rfl hmark
  | cons first others =>
    rw [List.cons_append] at here ⊢
    rw [afterEach, here]
    exact congrArg _ (afterEach_append h rest)

lemma afterFirst?_mark (mark rest : List Char) : afterFirst? mark (mark ++ rest) = some rest := by
  have here := isPrefixOf?_append_self mark rest
  generalize mark ++ rest = text at here ⊢
  cases text with
  | nil => exact here
  | cons c text => rw [afterFirst?, here]

end Avoids

/-! ## Finds of a recogniser -/

section Finds

variable {α : Type} {find? : List Char → Option (α × Nat)} {found : α} {c : Char}
  {text piece rest : List Char}

lemma findEachFrom_eq_drop (find? : List Char → Option (α × Nat)) (skip : Nat) (text : List Char) :
    findEachFrom find? skip text = findEach find? (text.drop skip) := by
  induction text generalizing skip with
  | nil => cases skip <;> rfl
  | cons c text ih =>
    cases skip with
    | zero => rfl
    | succ skip => exact ih skip

/-- Where nothing is found, the search goes on one character further. -/
lemma findEach_cons_of_eq_none (h : find? (c :: text) = none) :
    findEach find? (c :: text) = findEach find? text := by
  rw [findEach, findEachFrom, h]
  rfl

/-- A find in front is listed, and the search goes on behind it. -/
lemma findEach_append_of_eq_some (hpiece : piece ≠ [])
    (h : find? (piece ++ rest) = some (found, piece.length)) :
    findEach find? (piece ++ rest) = found :: findEach find? rest := by
  obtain ⟨first, others, rfl⟩ := List.exists_cons_of_ne_nil hpiece
  rw [List.cons_append] at h ⊢
  rw [findEach, findEachFrom, h]
  simp only
  rw [findEachFrom_eq_drop, List.length_cons, Nat.add_sub_cancel, List.drop_left]

/-- Whatever is found stands at the start of an end of the text. -/
lemma exists_suffix_of_mem_findEachFrom {skip : Nat} (h : found ∈ findEachFrom find? skip text) :
    ∃ behind width, behind <:+ text ∧ find? behind = some (found, width) := by
  induction text generalizing skip with
  | nil => cases skip <;> simp [findEachFrom] at h
  | cons c rest ih =>
    have later : ∀ {skip : Nat}, found ∈ findEachFrom find? skip rest →
        ∃ behind width, behind <:+ c :: rest ∧ find? behind = some (found, width) := by
      intro skip mem
      obtain ⟨behind, width, suffix, here⟩ := ih mem
      exact ⟨behind, width, suffix.trans (List.suffix_cons c rest), here⟩
    cases skip with
    | succ skip => exact later h
    | zero =>
      rw [findEachFrom] at h
      split at h
      · rename_i first width here
        rcases List.mem_cons.1 h with rfl | mem
        · exact ⟨c :: rest, width, List.suffix_rfl, here⟩
        · exact later mem
      · exact later h

end Finds

/-! ## Longest beginnings -/

/-- The longest beginning of characters of a kind ends in front of the first other character. -/
lemma takeWhile_append_of_stop {p : Char → Bool} {text rest : List Char}
    (htext : ∀ c ∈ text, p c = true) (hrest : ∀ c ∈ rest.head?, p c = false) :
    (text ++ rest).takeWhile p = text := by
  rw [List.takeWhile_append_of_pos htext]
  cases rest with
  | nil => exact List.append_nil text
  | cons c rest =>
    rw [List.takeWhile_cons_of_neg (by simp [hrest c rfl]), List.append_nil]

/-! ## Pieces -/

/-- The pieces of a text are those of the standard library. -/
lemma segments_eq_splitOn (sep : Char) (text : List Char) :
    segments sep text = text.splitOn sep := by
  induction text with
  | nil => rfl
  | cons c rest ih =>
    rw [segments_cons, addToSegments, List.splitOn_cons_eq_if_modifyHead, ih]
    simp

/-- A separator cuts a text between the pieces in front of it and those behind it. -/
lemma segments_append_cons (sep : Char) (before behind : List Char) :
    segments sep (before ++ sep :: behind) = segments sep before ++ segments sep behind := by
  simp only [segments_eq_splitOn]
  exact List.splitOnP_append_cons before behind (beq_self_eq_true sep)

/-- There is one piece more than there are separators. -/
lemma length_segments (sep : Char) (text : List Char) :
    (segments sep text).length = text.count sep + 1 := by
  induction text with
  | nil => rfl
  | cons c rest ih =>
    rw [segments_cons, addToSegments]
    split
    · rename_i here
      rw [here, List.length_cons, ih, List.count_cons_self]
    · rename_i other
      rw [List.length_modifyHead, ih, List.count_cons_of_ne other]

/-! ## Joined texts -/

lemma join_cons (between text : List Char) (texts : List (List Char)) :
    join between (text :: texts) = text ++ texts.flatMap (between ++ ·) := by
  induction texts generalizing text with
  | nil => simp [join]
  | cons next texts ih =>
    have step : join between (text :: next :: texts) =
        text ++ (between ++ join between (next :: texts)) := by
      simp [join]
    rw [step, ih, List.flatMap_cons, List.append_assoc]

lemma avoids_flatMap {α : Type} {mark : List Char} {f : α → List Char} {xs : List α}
    (h : ∀ x ∈ xs, Avoids mark (f x)) : Avoids mark (xs.flatMap f) := by
  induction xs with
  | nil => trivial
  | cons x xs ih =>
    obtain ⟨hx, hxs⟩ := List.forall_mem_cons.1 h
    exact hx.append (ih hxs)

lemma avoids_join {mark between : List Char} {texts : List (List Char)}
    (hbetween : Avoids mark between) (htexts : ∀ text ∈ texts, Avoids mark text) :
    Avoids mark (join between texts) := by
  cases texts with
  | nil => trivial
  | cons text texts =>
    obtain ⟨htext, htexts⟩ := List.forall_mem_cons.1 htexts
    rw [join_cons]
    exact htext.append (avoids_flatMap fun next hnext => hbetween.append (htexts next hnext))

end BranchCoverage.Text
