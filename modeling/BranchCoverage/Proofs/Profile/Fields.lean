import BranchCoverage.Profile.Marker
import BranchCoverage.Proofs.Text.Search
import Mathlib.Algebra.GroupWithZero.Nat

/-!
# What a title names

A title is searched for namings of the three fields, and what stands between them does not matter.
Two titles are of interest here, and both are read through the same step: a naming at the front of
a text is found, and the search goes on behind it (`namings_mark`).

* The title that the profiler writes names each field once, by a numeral; the marker has the values
  of the three numerals (`ofTitle?_profiledTitle`).
* A title without `count` and a digit behind it gives no marker, whatever else it says
  (`ofTitle?_eq_none`).  The digits of a naming stand in the title
  (`infix_of_mem_namings`), so a naming of the count can only be in digits of another script,
  and these have no value.
-/

namespace BranchCoverage.Marker

open Text

/-! ## Numerals -/

/-- A number below a bound as it may be written: in ASCII digits, with or without zeros in front. -/
structure Numeral (bound : Nat) where
  digits : List Char
  digits_ne_nil : digits ≠ []
  isDigit : ∀ c ∈ digits, c.isDigit = true
  value_lt : Nat.ofDigitChars 10 digits 0 < bound

namespace Numeral

variable {bound : Nat}

def value (numeral : Numeral bound) : Nat :=
  Nat.ofDigitChars 10 numeral.digits 0

lemma readNaturalBelow_digits (numeral : Numeral bound) :
    readNaturalBelow bound numeral.digits = some numeral.value := by
  have read : readNatural numeral.digits = some numeral.value := by
    have written : numeral.digits.isEmpty = false := by simpa using numeral.digits_ne_nil
    have ascii : numeral.digits.all Char.isDigit = true := List.all_eq_true.2 numeral.isDigit
    rw [readNatural, written, ascii]
    rfl
  have below : numeral.value < bound := numeral.value_lt
  rw [readNaturalBelow, read, Option.filter_some, if_pos (decide_eq_true below)]

lemma isDecimalDigit (numeral : Numeral bound) : ∀ c ∈ numeral.digits, isDecimalDigit c = true :=
  fun c hc => isDecimalDigit_of_isDigit (numeral.isDigit c hc)

end Numeral

/-! ## The step of the search -/

section Namings

variable {field : Field} {digits text rest title : List Char}

lemma digitsAt?_mark (hne : digits ≠ []) (hdigits : ∀ c ∈ digits, isDecimalDigit c = true)
    (hrest : ∀ c ∈ rest.head?, isDecimalDigit c = false) :
    field.digitsAt? (field.mark ++ (digits ++ rest)) = some digits := by
  rw [Field.digitsAt?, isPrefixOf?_append_self, Option.map_some,
    takeWhile_append_of_stop hdigits hrest]
  obtain ⟨c, others, rfl⟩ := List.exists_cons_of_ne_nil hne
  rfl

/-- A text that names a field names no field that is looked for earlier. -/
lemma namingAt?_mark (hne : digits ≠ []) (hdigits : ∀ c ∈ digits, isDecimalDigit c = true)
    (hrest : ∀ c ∈ rest.head?, isDecimalDigit c = false) :
    namingAt? (field.mark ++ (digits ++ rest)) =
      some ((field, digits), (field.mark ++ digits).length) := by
  have here : field.digitsAt? (field.mark ++ (digits ++ rest)) = some digits :=
    digitsAt?_mark hne hdigits hrest
  cases field with
  | line => simp [namingAt?, Field.all, here]
  | column =>
    have other : Field.digitsAt? .line (Field.mark .column ++ (digits ++ rest)) = none := rfl
    simp [namingAt?, Field.all, other, here]
  | count =>
    have other : Field.digitsAt? .line (Field.mark .count ++ (digits ++ rest)) = none := rfl
    have another : Field.digitsAt? .column (Field.mark .count ++ (digits ++ rest)) = none := rfl
    simp [namingAt?, Field.all, other, another, here]

/-- **The step.**  A naming in front is found, with all of its digits, and the search goes on behind
them. -/
lemma namings_mark (hne : digits ≠ []) (hdigits : ∀ c ∈ digits, isDecimalDigit c = true)
    (hrest : ∀ c ∈ rest.head?, isDecimalDigit c = false) :
    namings (field.mark ++ (digits ++ rest)) = (field, digits) :: namings rest := by
  have found : namingAt? (field.mark ++ (digits ++ rest)) =
      some ((field, digits), (field.mark ++ digits).length) := namingAt?_mark hne hdigits hrest
  rw [← List.append_assoc] at found ⊢
  exact findEach_append_of_eq_some (by simp [hne]) found

lemma namings_space (text : List Char) : namings (' ' :: text) = namings text := rfl

lemma namingAt?_eq_some {width : Nat} (h : namingAt? text = some ((field, digits), width)) :
    digits ≠ [] ∧ field.mark ++ digits <+: text := by
  obtain ⟨found, -, named⟩ := List.exists_of_findSome?_eq_some h
  obtain ⟨digits, here, same⟩ := Option.map_eq_some_iff.1 named
  obtain ⟨naming, -⟩ := Prod.mk.inj same
  obtain ⟨rfl, rfl⟩ := Prod.mk.inj naming
  rw [Field.digitsAt?] at here
  split at here
  · rename_i first others read
    obtain rfl := Option.some.inj here
    obtain ⟨behind, marked, word⟩ := Option.map_eq_some_iff.1 read
    obtain rfl := List.isPrefixOf?_eq_some_iff_append_eq.1 marked
    have begins : first :: others <+: behind := word ▸ List.takeWhile_prefix _
    exact ⟨List.cons_ne_nil first others, (List.prefix_append_right_inj _).2 begins⟩
  · cases here

/-- A naming that the search finds stands in the title. -/
lemma infix_of_mem_namings (h : (field, digits) ∈ namings title) :
    digits ≠ [] ∧ field.mark ++ digits <:+: title := by
  obtain ⟨behind, width, suffix, found⟩ := exists_suffix_of_mem_findEachFrom h
  obtain ⟨hne, begins⟩ := namingAt?_eq_some found
  exact ⟨hne, begins.isInfix.trans suffix.isInfix⟩

end Namings

/-! ## The title that the profiler writes -/

/-- A title with a numeral for each field. -/
def profiledTitle (line column : Numeral (2 ^ 32)) (count : Numeral (2 ^ 64)) : List Char :=
  "line ".toList ++ (line.digits ++ (" char ".toList ++ (column.digits ++
    (" count ".toList ++ count.digits))))

lemma namings_profiledTitle (line column : Numeral (2 ^ 32)) (count : Numeral (2 ^ 64)) :
    namings (profiledTitle line column count) =
      [(.line, line.digits), (.column, column.digits), (.count, count.digits)] := by
  have countNaming : namings (Field.mark .count ++ (count.digits ++ [])) =
      [(.count, count.digits)] :=
    namings_mark count.digits_ne_nil count.isDecimalDigit (by simp)
  rw [List.append_nil] at countNaming
  have space : ∀ text : List Char, ∀ c ∈ (' ' :: text).head?, isDecimalDigit c = false := by
    intro text c hc
    obtain rfl : ' ' = c := by simpa using hc
    decide
  have columnNaming : namings (Field.mark .column ++ (column.digits ++
      (' ' :: (Field.mark .count ++ count.digits)))) =
      [(.column, column.digits), (.count, count.digits)] := by
    rw [namings_mark column.digits_ne_nil column.isDecimalDigit (space _), namings_space,
      countNaming]
  have lineNaming : namings (Field.mark .line ++ (line.digits ++
      (' ' :: (Field.mark .column ++ (column.digits ++
        (' ' :: (Field.mark .count ++ count.digits))))))) =
      [(.line, line.digits), (.column, column.digits), (.count, count.digits)] := by
    rw [namings_mark line.digits_ne_nil line.isDecimalDigit (space _), namings_space, columnNaming]
  exact lineNaming

/-- The marker of a title of the profiler has the values of its numerals. -/
theorem ofTitle?_profiledTitle (line column : Numeral (2 ^ 32)) (count : Numeral (2 ^ 64)) :
    ofTitle? (profiledTitle line column count) =
      some { line := line.value, column := column.value, count := count.value } := by
  have found := namings_profiledTitle line column count
  have lineValue : valueOf .line (namings (profiledTitle line column count)) = some line.value := by
    rw [found]
    exact line.readNaturalBelow_digits
  have columnValue : valueOf .column (namings (profiledTitle line column count)) =
      some column.value := by
    rw [found]
    exact column.readNaturalBelow_digits
  have countValue : valueOf .count (namings (profiledTitle line column count)) =
      some count.value := by
    rw [found]
    exact count.readNaturalBelow_digits
  simp only [ofTitle?, lineValue, columnValue, countValue]

/-! ## Titles without a count -/

lemma readNaturalBelow_eq_none {bound : Nat} {digit : Char} {digits : List Char}
    (h : digit.isDigit = false) : readNaturalBelow bound (digit :: digits) = none := by
  simp [readNaturalBelow, readNatural, h]

/-- A title gives no marker if no digit stands behind a `count` in it. -/
theorem ofTitle?_eq_none {title : List Char}
    (h : ∀ digit : Char, digit.isDigit = true → ¬ "count ".toList ++ [digit] <:+: title) :
    ofTitle? title = none := by
  have uncounted : valueOf .count (namings title) = none := by
    rw [valueOf]
    split
    · rename_i field digits last
      obtain ⟨mem, count⟩ := List.mem_filter.1 (List.mem_of_getLast? last)
      obtain rfl : field = .count := by simpa using count
      obtain ⟨hne, inside⟩ := infix_of_mem_namings mem
      obtain ⟨digit, others, rfl⟩ := List.exists_cons_of_ne_nil hne
      have front : "count ".toList ++ [digit] <+: Field.mark .count ++ digit :: others :=
        (List.prefix_append_right_inj _).2 ⟨others, rfl⟩
      apply readNaturalBelow_eq_none
      by_contra ascii
      exact h digit (by simpa using ascii) (front.isInfix.trans inside)
    · rfl
  rw [ofTitle?]
  simp only [uncounted]
  cases valueOf .line (namings title) <;> cases valueOf .column (namings title) <;> rfl

end BranchCoverage.Marker
