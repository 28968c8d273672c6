import BranchCoverage.Proofs.Text.Search
import Mathlib.Data.List.Infix

/-!
# Occurrences of a mark

The searches of `BranchCoverage.Text` go through a text from left to right.  What they find can be
said without that: a search for all occurrences finds as many as there are places where the mark
begins (`length_afterEach`), a search for the first one stops where no earlier one begins
(`firstIn_of_afterFirst?`), and it succeeds exactly on the texts that the mark is a part of
(`isSome_afterFirst?_iff`).

Some marks cannot overlap themselves: `Avoids mark mark.tail`.  Of such a mark, no occurrence begins
in a text without one and goes on into an occurrence that stands behind the text
(`not_prefix_append`), also where the text ends in a part of the mark.
-/

namespace BranchCoverage.Text

variable {mark text rest : List Char}

/-- The number of places of a text where a mark begins. -/
def occurrences (mark text : List Char) : Nat :=
  text.tails.countP fun rest => mark <+: rest

/-- The mark stands between the two texts, and nowhere before. -/
structure FirstIn (mark text before rest : List Char) : Prop where
  split : text = before ++ (mark ++ rest)
  first : ∀ earlier behind, text = earlier ++ (mark ++ behind) → before.length ≤ earlier.length

/-- Searching for all occurrences passes over none. -/
theorem length_afterEach (hmark : mark ≠ []) (text : List Char) :
    (afterEach mark text).length = occurrences mark text := by
  induction text with
  | nil =>
    have absent : ¬ mark <+: [] := by rwa [List.prefix_nil]
    simp [afterEach, occurrences, absent]
  | cons c text ih =>
    unfold occurrences at ih ⊢
    rw [List.tails_cons, List.countP_cons, ← ih, afterEach]
    by_cases here : mark <+: c :: text
    · obtain ⟨behind, split⟩ := here
      rw [List.isPrefixOf?_eq_some_iff_append_eq.2 split]
      have begins : mark <+: c :: text := ⟨behind, split⟩
      simp [begins]
    · rw [isPrefixOf?_eq_none here]
      simp [here]

lemma isSome_isPrefixOf?_iff : (mark.isPrefixOf? text).isSome = true ↔ mark <+: text := by
  constructor
  · intro h
    obtain ⟨behind, found⟩ := Option.isSome_iff_exists.1 h
    exact ⟨behind, List.isPrefixOf?_eq_some_iff_append_eq.1 found⟩
  · rintro ⟨behind, rfl⟩
    rw [isPrefixOf?_append_self]
    rfl

/-- A search finds something exactly if the mark is part of the text. -/
theorem isSome_afterFirst?_iff : (afterFirst? mark text).isSome = true ↔ mark <:+: text := by
  induction text with
  | nil => rw [afterFirst?, isSome_isPrefixOf?_iff, List.prefix_nil, List.infix_nil]
  | cons c text ih =>
    rw [List.infix_cons_iff, ← ih, ← isSome_isPrefixOf?_iff, afterFirst?]
    cases mark.isPrefixOf? (c :: text) with
    | none => simp
    | some behind => simp

lemma contains_iff : contains mark text = true ↔ mark <:+: text :=
  isSome_afterFirst?_iff

/-- No occurrence begins in a part that avoids the mark. -/
lemma infix_append_iff (h : Avoids mark text) : mark <:+: text ++ rest ↔ mark <:+: rest := by
  rw [← isSome_afterFirst?_iff, afterFirst?_append h, isSome_afterFirst?_iff]

/-- What a search finds stands behind the first occurrence. -/
theorem firstIn_of_afterFirst? (h : afterFirst? mark text = some rest) :
    ∃ before, FirstIn mark text before rest := by
  induction text with
  | nil =>
    have split := List.isPrefixOf?_eq_some_iff_append_eq.1 h
    exact ⟨[], split.symm, fun _ _ _ => Nat.zero_le _⟩
  | cons c text ih =>
    rw [afterFirst?] at h
    split at h
    · rename_i behind found
      obtain rfl := Option.some.inj h
      have split := List.isPrefixOf?_eq_some_iff_append_eq.1 found
      exact ⟨[], split.symm, fun _ _ _ => Nat.zero_le _⟩
    · rename_i absent
      obtain ⟨before, split, first⟩ := ih h
      refine ⟨c :: before, by rw [split, List.cons_append], ?_⟩
      intro earlier behind other
      cases earlier with
      | nil =>
        have begins : mark.isPrefixOf? (c :: text) = some behind :=
          List.isPrefixOf?_eq_some_iff_append_eq.2 other.symm
        rw [absent] at begins
        cases begins
      | cons d earlier =>
        obtain ⟨-, other⟩ := List.cons.inj other
        exact Nat.succ_le_succ (first earlier behind other)

/-! ## Marks that cannot overlap themselves -/

lemma Avoids.not_prefix_of_suffix (h : Avoids mark text) (hne : rest ≠ [])
    (suffix : rest <:+ text) : ¬ rest <+: mark := by
  induction text with
  | nil => exact absurd (List.suffix_nil.1 suffix) hne
  | cons c text ih =>
    obtain ⟨clash, behind⟩ := h
    rcases List.suffix_cons_iff.1 suffix with rfl | suffix
    · exact clash.2
    · exact ih behind suffix

/-- No occurrence of a mark begins in a text without one, if the text is the last or the mark stands
behind it. -/
theorem not_prefix_append (hmark : Avoids mark mark.tail) (hplain : ¬ mark <:+: text)
    (hne : text ≠ []) (hrest : rest = [] ∨ mark <+: rest) : ¬ mark <+: text ++ rest := by
  intro begins
  rcases hrest with rfl | next
  · rw [List.append_nil] at begins
    exact hplain begins.isInfix
  · rcases List.prefix_or_prefix_of_prefix begins (List.prefix_append text rest) with
      inside | across
    · exact hplain inside.isInfix
    · -- the part of the mark that reaches into the next occurrence begins the mark as well
      obtain ⟨part, rfl⟩ := across
      obtain ⟨c, others, rfl⟩ := List.exists_cons_of_ne_nil hne
      have reaches : part <+: rest := (List.prefix_append_right_inj _).1 begins
      have border : part <+: c :: others ++ part :=
        List.prefix_of_prefix_length_le reaches next (List.suffix_append _ part).length_le
      by_cases none : part = []
      · subst none
        rw [List.append_nil] at hplain
        exact hplain (List.infix_refl _)
      · exact hmark.not_prefix_of_suffix none (List.suffix_append others part) border

end BranchCoverage.Text
