/-!
# Blank characters

A character is *blank* when it has the Unicode property `White_Space`.  Everything in the library
that skips, trims or looks for white space asks `isBlank`, so a name that ends in an ideographic
space is trimmed and a name that holds a zero-width space is not.

The property has twenty-five members, which are listed here by code point (`blankRanges`).
-/

namespace BranchCoverage.Text

/-- The code points with the property `White_Space`, as closed ranges in ascending order. -/
def blankRanges : List (Nat × Nat) :=
  [(0x0009, 0x000D), (0x0020, 0x0020), (0x0085, 0x0085), (0x00A0, 0x00A0), (0x1680, 0x1680),
   (0x2000, 0x200A), (0x2028, 0x2029), (0x202F, 0x202F), (0x205F, 0x205F), (0x3000, 0x3000)]

/-- Whether a character is white space. -/
def isBlank (c : Char) : Bool :=
  blankRanges.any fun (low, high) => low ≤ c.toNat && c.toNat ≤ high

def trimStart (text : List Char) : List Char :=
  text.dropWhile isBlank

def trim (text : List Char) : List Char :=
  (trimStart (trimStart text).reverse).reverse

/-- Whether a text has no character that could be seen. -/
def isBlankText (text : List Char) : Bool :=
  text.all isBlank

/-- A text is blank exactly when trimming leaves nothing of it. -/
theorem trimStart_eq_nil_iff {text : List Char} :
    trimStart text = [] ↔ isBlankText text = true := by
  induction text with
  | nil => simp [trimStart, isBlankText]
  | cons c rest ih =>
    cases hc : isBlank c
    · simp [trimStart, isBlankText, hc]
    · have step : trimStart (c :: rest) = trimStart rest := List.dropWhile_cons_of_pos hc
      rw [step, ih]
      simp [isBlankText, hc]

theorem trimStart_cons_of_isBlank {c : Char} (h : isBlank c = true) (text : List Char) :
    trimStart (c :: text) = trimStart text :=
  List.dropWhile_cons_of_pos h

theorem trimStart_of_head? {text : List Char} (h : ∀ c ∈ text.head?, isBlank c = false) :
    trimStart text = text := by
  cases text with
  | nil => rfl
  | cons c rest =>
    refine List.dropWhile_cons_of_neg ?_
    simp [h c rfl]

theorem trimStart_append_of_isBlankText {blanks : List Char} (h : isBlankText blanks = true)
    (text : List Char) : trimStart (blanks ++ text) = trimStart text :=
  List.dropWhile_append_of_pos (List.all_eq_true.1 h)

/-- Trimming takes off exactly the blanks behind a text that neither begins nor ends with one. -/
theorem trim_append_of_isBlankText {text blanks : List Char}
    (hfirst : ∀ c ∈ text.head?, isBlank c = false)
    (hlast : ∀ c ∈ text.getLast?, isBlank c = false) (hblanks : isBlankText blanks = true) :
    trim (text ++ blanks) = text := by
  have blanksBehind : isBlankText blanks.reverse = true := by
    simpa only [isBlankText, List.all_reverse] using hblanks
  have front : trimStart text.reverse = text.reverse := by
    apply trimStart_of_head?
    rwa [List.head?_reverse]
  cases text with
  | nil =>
    rw [trim, List.nil_append, trimStart_eq_nil_iff.2 hblanks]
    rfl
  | cons c rest =>
    have first : trimStart (c :: rest ++ blanks) = c :: rest ++ blanks := trimStart_of_head? hfirst
    rw [trim, first, List.reverse_append, trimStart_append_of_isBlankText blanksBehind, front,
      List.reverse_reverse]

end BranchCoverage.Text
