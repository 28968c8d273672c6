import BranchCoverage.RuntimeName
import Mathlib.Data.Set.Function
import Mathlib.Tactic.Common

/-!
# Telling escapes apart

A runtime name is read from left to right: a letter, a digit or an underscore stands for itself,
and `C-` begins an escape.  Two things can be mistaken for one another.

* **The end of an escape.**  An escape has no end mark, so a plain digit behind it may as well be
  its last digit.  `Continues c d` says that the escape of `d` is the escape of `c` with more digits
  behind it: `.` is `C-46` and `ǎ` is `C-462`, so `.2` and `ǎ` have one encoding.
* **The beginning of an escape.**  A plain `C` looks like one, until the character behind it is
  seen.  `OpensEscape` holds of the texts that would complete it; no encoding is one of them
  (`not_opensEscape_encode`), because a hyphen is only ever written inside an escape.

`encodeChar_append_inj` is the single step of reading: where neither confusion is possible, equal
texts begin with the same character and go on with equal texts.  Reading two names at once
(`encode_inj`) repeats it.  `encode_isSuffix_iff` adds the third thing that could go wrong, which is
a text that begins in the middle of an escape: only a text that begins with a digit can.
-/

namespace BranchCoverage.RuntimeName

/-! ## What an encoding begins with -/

/-- A text that turns a `C` in front of it into the beginning of an escape. -/
def OpensEscape (text : List Char) : Prop :=
  ∃ digit rest, text = '-' :: digit :: rest ∧ digit.isDigit = true

lemma isPlain_of_isDigit {c : Char} (h : c.isDigit = true) : isPlain c = true := by
  simp [isPlain, Char.isAlphanum, h]

lemma encodeChar_ne_nil (c : Char) : encodeChar c ≠ [] := by
  cases hc : isPlain c with
  | true => simp [encodeChar_of_isPlain hc]
  | false => simp [encodeChar_of_not_isPlain hc]

/-- The encoding of a character begins with a plain character: itself, or the `C` of its escape. -/
lemma head?_encodeChar (c : Char) :
    (encodeChar c).head? = some (if isPlain c then c else 'C') := by
  cases hc : isPlain c with
  | true => simp [encodeChar_of_isPlain hc]
  | false => simp [encodeChar_of_not_isPlain hc]

lemma head?_encode_cons (c : Char) (text : List Char) :
    (encode (c :: text)).head? = some (if isPlain c then c else 'C') := by
  rw [encode_cons, List.head?_append, head?_encodeChar]
  rfl

lemma head?_encode_cons_append (c : Char) (text rest : List Char) :
    (encode (c :: text) ++ rest).head? = some (if isPlain c then c else 'C') := by
  rw [List.head?_append, head?_encode_cons, Option.some_or]

lemma encode_eq_nil_iff {text : List Char} : encode text = [] ↔ text = [] := by
  cases text with
  | nil => simp
  | cons c rest => simp [encodeChar_ne_nil c]

/-- A text of plain characters is its own encoding. -/
lemma encode_of_plain {text : List Char} (h : ∀ c ∈ text, isPlain c = true) :
    encode text = text := by
  induction text with
  | nil => rfl
  | cons c rest ih =>
    obtain ⟨hc, hrest⟩ := List.forall_mem_cons.1 h
    rw [encode_cons, encodeChar_of_isPlain hc, ih hrest]
    rfl

/-- No encoding begins with a hyphen. -/
lemma head?_encode_ne_hyphen (text : List Char) : (encode text).head? ≠ some '-' := by
  cases text with
  | nil => simp
  | cons c rest =>
    rw [head?_encode_cons]
    intro h
    cases hc : isPlain c with
    | true =>
      have hyphen : c = '-' := by simpa [hc] using h
      subst hyphen
      exact absurd hc (by decide)
    | false => simp [hc] at h

/-- A plain `C` in front of an encoding stays a plain `C`. -/
lemma not_opensEscape_encode (text : List Char) : ¬ OpensEscape (encode text) := by
  rintro ⟨digit, rest, h, -⟩
  apply head?_encode_ne_hyphen text
  rw [h]
  rfl

/-- Only a digit has an encoding that begins with one. -/
lemma eq_of_isDigit {c digit : Char} (hd : digit.isDigit = true)
    (h : (if isPlain c then c else 'C') = digit) : c = digit := by
  cases hc : isPlain c with
  | true => simpa [hc] using h
  | false =>
    have letter : 'C' = digit := by simpa [hc] using h
    subst letter
    exact absurd hd (by decide)

/-- Only a text that begins with a digit has an encoding that begins with one. -/
lemma head?_isDigit_of_encode {text rest : List Char} {digit : Char} (hd : digit.isDigit = true)
    (h : encode text = digit :: rest) : text.head? = some digit := by
  cases text with
  | nil => simp at h
  | cons c others =>
    have first := head?_encode_cons c others
    rw [h] at first
    exact congrArg some (eq_of_isDigit hd (Option.some.inj first).symm)

/-! ## Where an escape ends -/

/-- The escape of `d` is the escape of `c` with more digits behind it: the decimal code point of `c`
is a proper prefix of that of `d`. -/
def Continues (c d : Char) : Prop :=
  isPlain c = false ∧ isPlain d = false ∧
    Text.decimal c.toNat <+: Text.decimal d.toNat ∧ Text.decimal c.toNat ≠ Text.decimal d.toNat

/-- An alphabet in which no escape continues another. -/
def Unambiguous (alphabet : Set Char) : Prop :=
  ∀ c ∈ alphabet, ∀ d ∈ alphabet, ¬ Continues c d

/-- A plain character is mistaken for an escape only if it is a `C` that the text behind it
completes. -/
lemma opensEscape_of_cons_eq {c d : Char} {s t : List Char} (hd : isPlain d = false)
    (h : c :: s = encodeChar d ++ t) : OpensEscape s := by
  rw [encodeChar_of_not_isPlain hd] at h
  obtain ⟨digit, digits, split⟩ := List.exists_cons_of_ne_nil (Text.decimal_ne_nil d.toNat)
  have isDigit : digit.isDigit = true :=
    Text.isDigit_of_mem_decimal (n := d.toNat) (by simp [split])
  refine ⟨digit, digits ++ t, ?_, isDigit⟩
  rw [split] at h
  simpa using (List.cons.inj h).2

/-- Two escapes that neither continues are the same escape, whatever stands behind them. -/
lemma escape_append_inj {c d : Char} {s t : List Char} (hc : isPlain c = false)
    (hd : isPlain d = false) (hcd : ¬ Continues c d) (hdc : ¬ Continues d c)
    (h : Text.decimal c.toNat ++ s = Text.decimal d.toNat ++ t) : c = d ∧ s = t := by
  have digits : Text.decimal c.toNat = Text.decimal d.toNat := by
    by_contra different
    have reach : Text.decimal d.toNat <+: Text.decimal c.toNat ++ s := ⟨t, h.symm⟩
    rcases List.prefix_or_prefix_of_prefix (List.prefix_append _ s) reach with hp | hp
    · exact hcd ⟨hc, hd, hp, different⟩
    · exact hdc ⟨hd, hc, hp, fun same => different same.symm⟩
  refine ⟨Char.toNat_inj.1 (Text.decimal_inj.1 digits), ?_⟩
  rw [digits] at h
  exact List.append_cancel_left h

/-- **One step of reading.**  Where no escape can be continued and no `C` completed, equal texts
begin with the same character. -/
lemma encodeChar_append_inj {c d : Char} {s t : List Char} (hs : ¬ OpensEscape s)
    (ht : ¬ OpensEscape t) (hcd : ¬ Continues c d) (hdc : ¬ Continues d c)
    (h : encodeChar c ++ s = encodeChar d ++ t) : c = d ∧ s = t := by
  cases hc : isPlain c with
  | true =>
    rw [encodeChar_of_isPlain hc] at h
    cases hd : isPlain d with
    | true =>
      rw [encodeChar_of_isPlain hd] at h
      simpa using h
    | false => exact absurd (opensEscape_of_cons_eq hd h) hs
  | false =>
    cases hd : isPlain d with
    | true =>
      rw [encodeChar_of_isPlain hd] at h
      exact absurd (opensEscape_of_cons_eq hc h.symm) ht
    | false =>
      rw [encodeChar_of_not_isPlain hc, encodeChar_of_not_isPlain hd] at h
      exact escape_append_inj hc hd hcd hdc (by simpa using h)

/-! ## Whole names -/

section Names

variable {alphabet : Set Char} {xs ys : List Char}

/-- An encoding in front of a text opens no escape that the text does not open. -/
lemma not_opensEscape_encode_append {rest : List Char} (h : ¬ OpensEscape rest)
    (text : List Char) : ¬ OpensEscape (encode text ++ rest) := by
  cases text with
  | nil => exact h
  | cons c text =>
    rintro ⟨digit, others, same, -⟩
    apply head?_encode_ne_hyphen (c :: text)
    rw [head?_encode_cons, ← head?_encode_cons_append c text rest, same]
    rfl

/-- **Reading up to a hyphen.**  Over an unambiguous alphabet an encoding is read to its end and no
further, if what stands behind it is nothing, or a hyphen that a `C` in front of it would not turn
into an escape. -/
theorem encode_append_inj {s t : List Char} (unambiguous : Unambiguous alphabet)
    (hxs : ∀ c ∈ xs, c ∈ alphabet) (hys : ∀ c ∈ ys, c ∈ alphabet)
    (hs : ∀ c ∈ s.head?, c = '-') (ht : ∀ c ∈ t.head?, c = '-') (hs' : ¬ OpensEscape s)
    (ht' : ¬ OpensEscape t) (h : encode xs ++ s = encode ys ++ t) : xs = ys ∧ s = t := by
  -- an encoding that is not empty does not begin with a hyphen
  have ends : ∀ (c : Char) (cs rest rest' : List Char), (∀ c ∈ rest'.head?, c = '-') →
      encode (c :: cs) ++ rest ≠ rest' := by
    rintro c cs rest _ hyphen rfl
    rw [head?_encode_cons_append] at hyphen
    exact head?_encode_ne_hyphen (c :: cs) (by rw [head?_encode_cons, hyphen _ rfl])
  induction xs generalizing ys with
  | nil =>
    cases ys with
    | nil => exact ⟨rfl, h⟩
    | cons d ds => exact absurd h.symm (ends d ds t s hs)
  | cons c cs ih =>
    cases ys with
    | nil => exact absurd h (ends c cs s t ht)
    | cons d ds =>
      obtain ⟨hc, hcs⟩ := List.forall_mem_cons.1 hxs
      obtain ⟨hd, hds⟩ := List.forall_mem_cons.1 hys
      rw [encode_cons, encode_cons, List.append_assoc, List.append_assoc] at h
      obtain ⟨rfl, tails⟩ := encodeChar_append_inj (not_opensEscape_encode_append hs' cs)
        (not_opensEscape_encode_append ht' ds) (unambiguous c hc d hd) (unambiguous d hd c hc) h
      obtain ⟨rfl, rest⟩ := ih hcs hds tails
      exact ⟨rfl, rest⟩

/-- Over an unambiguous alphabet a text can be read back from its encoding. -/
theorem encode_inj (unambiguous : Unambiguous alphabet) (hxs : ∀ c ∈ xs, c ∈ alphabet)
    (hys : ∀ c ∈ ys, c ∈ alphabet) (h : encode xs = encode ys) : xs = ys := by
  have nothing : ¬ OpensEscape [] := not_opensEscape_encode []
  refine (encode_append_inj unambiguous hxs hys ?_ ?_ nothing nothing (congrArg (· ++ []) h)).1
  · simp
  · simp

/-- A part of the encoding of a character that is not the whole of it begins with a hyphen or a
digit. -/
lemma head_of_suffix_encodeChar {c first : Char} {rest : List Char}
    (h : first :: rest <:+ encodeChar c) (proper : first :: rest ≠ encodeChar c) :
    first = '-' ∨ first.isDigit = true := by
  cases hc : isPlain c with
  | true =>
    rw [encodeChar_of_isPlain hc] at h proper
    rcases List.suffix_cons_iff.1 h with whole | none
    · exact absurd whole proper
    · simp at none
  | false =>
    rw [encodeChar_of_not_isPlain hc] at h proper
    rcases List.suffix_cons_iff.1 h with whole | h
    · exact absurd whole proper
    rcases List.suffix_cons_iff.1 h with hyphen | digits
    · exact .inl (List.cons.inj hyphen).1
    · exact .inr (Text.isDigit_of_mem_decimal (digits.mem (List.mem_cons_self ..)))

/-- No match begins inside an escape: an encoding that ends another, of a text that does not begin
with a digit, begins where a character of the other begins. -/
lemma encode_isSuffix_cons {c : Char} (hdigit : ∀ first, xs.head? = some first →
      first.isDigit = false) (h : encode xs <:+ encode (c :: ys)) :
    encode xs = encode (c :: ys) ∨ encode xs <:+ encode ys := by
  rw [encode_cons] at h ⊢
  obtain ⟨front, h⟩ := h
  rcases List.append_eq_append_iff.1 h with ⟨inside, hchar, hxs⟩ | ⟨gap, hfront, hys⟩
  · -- the match begins inside the encoding of `c`, at `inside`
    cases inside with
    | nil => exact .inr ⟨[], hxs.symm ▸ rfl⟩
    | cons first rest =>
      left
      by_contra whole
      have suffix : first :: rest <:+ encodeChar c := ⟨front, hchar.symm⟩
      have proper : first :: rest ≠ encodeChar c := by
        intro same
        exact whole (by rw [hxs, same])
      rcases head_of_suffix_encodeChar suffix proper with rfl | digit
      · apply head?_encode_ne_hyphen xs
        rw [hxs]
        rfl
      · have begins : xs.head? = some first := head?_isDigit_of_encode digit hxs
        exact absurd digit (by simp [hdigit first begins])
  · exact .inr ⟨gap, hys.symm⟩

/-- **Suffixes are suffixes of names.**  Over an unambiguous alphabet, the encoding of a text that
does not begin with a digit ends another encoding exactly when the text ends the other text. -/
theorem encode_isSuffix_iff (unambiguous : Unambiguous alphabet) (hxs : ∀ c ∈ xs, c ∈ alphabet)
    (hys : ∀ c ∈ ys, c ∈ alphabet)
    (hdigit : ∀ first, xs.head? = some first → first.isDigit = false) :
    encode xs <:+ encode ys ↔ xs <:+ ys := by
  constructor
  · intro h
    induction ys with
    | nil =>
      have none : xs = [] := encode_eq_nil_iff.1 (List.suffix_nil.1 h)
      simp [none]
    | cons c ys ih =>
      rcases encode_isSuffix_cons hdigit h with whole | later
      · have same : xs = c :: ys := encode_inj unambiguous hxs hys whole
        exact same ▸ List.suffix_refl xs
      · exact (ih (List.forall_mem_cons.1 hys).2 later).trans (List.suffix_cons c ys)
  · rintro ⟨front, rfl⟩
    exact ⟨encode front, (encode_append front xs).symm⟩

end Names

end BranchCoverage.RuntimeName
