import BranchCoverage.Proofs.Profile.Fields
import BranchCoverage.Proofs.Profile.Titles
import BranchCoverage.Proofs.Text.Occurrence

/-!
# Markers in any markup

Nothing is known of the markup that a profiler puts around its titles.  A *markup* here is any text
in which attributes of the profiler stand between texts of which none holds the beginning of a title
itself; these may hold quotes, and may end in a part of that beginning, directly in front of an
attribute.  The scan finds exactly the attributes, in their order (`titles_text`), gives a marker
for each one that is well formed, and counts the others (`scan_text`).

Two steps carry the scan over a markup.  It passes over a text between attributes, because the
beginning of a title cannot overlap itself and so none begins in the text and ends in the attribute
behind it (`titles_append`).  And it takes an attribute whole, because the text of the attribute
goes up to the first quote, and the search goes on behind that quote (`titles_attribute`).
-/

namespace BranchCoverage.Marker

open Text

section Titles

variable {title text rest : List Char}

/-- The scan passes over a text that holds no beginning of a title, if the text is the last or an
attribute stands behind it. -/
lemma titles_append (hplain : ¬ titleMark <:+: text) (hrest : rest = [] ∨ titleMark <+: rest) :
    titles (text ++ rest) = titles rest := by
  induction text with
  | nil => rfl
  | cons c text ih =>
    have here : ¬ titleMark <+: c :: text ++ rest :=
      not_prefix_append (by decide) hplain (List.cons_ne_nil c text) hrest
    have behind : ¬ titleMark <:+: text := fun inside => hplain (List.infix_cons inside)
    have unfound : titleAt? (c :: (text ++ rest)) = none :=
      if_neg (by rwa [List.isPrefixOf_iff_prefix])
    exact (findEach_cons_of_eq_none unfound).trans (ih behind)

lemma closed?_append (hquote : '"' ∉ title) :
    closed? (title ++ '"' :: rest) = some (title, rest) := by
  have inside : ∀ c ∈ title, decide (c ≠ '"') = true := by
    intro c hc
    refine decide_eq_true ?_
    rintro rfl
    exact hquote hc
  have front : (title ++ '"' :: rest).takeWhile (· ≠ '"') = title :=
    takeWhile_append_of_stop inside (by simp)
  have behind : (title ++ '"' :: rest).dropWhile (· ≠ '"') = '"' :: rest := by
    rw [List.dropWhile_append_of_pos inside]
    rfl
  rw [closed?, front, behind]

/-- The scan takes an attribute whole, and goes on behind it. -/
lemma titles_attribute (hline : "line".toList <+: title) (hquote : '"' ∉ title) :
    titles (titleOpening ++ (title ++ '"' :: rest)) = title :: titles rest := by
  have mark : titleMark.isPrefixOf (titleOpening ++ (title ++ '"' :: rest)) = true :=
    List.isPrefixOf_iff_prefix.2 <| (List.prefix_append_right_inj titleOpening).2 <|
      hline.trans (List.prefix_append _ _)
  have found : titleAt? (titleOpening ++ (title ++ '"' :: rest)) =
      some (title, (titleOpening ++ (title ++ ['"'])).length) := by
    rw [titleAt?, if_pos mark, List.drop_left, closed?_append hquote]
    simp [Nat.add_assoc]
  have whole : titleOpening ++ (title ++ '"' :: rest) =
      titleOpening ++ (title ++ ['"']) ++ rest := by simp
  rw [whole] at found ⊢
  exact findEach_append_of_eq_some (by simp) found

end Titles

/-! ## Attributes -/

/-- An attribute of the profiler: with a title that has a numeral for each field, or with one that
begins like that and has no closing quote in it and no digit behind a `count`. -/
inductive Attribute where
  | wellFormed (line column : Numeral (2 ^ 32)) (count : Numeral (2 ^ 64))
  | malformed (rest : List Char) (unquoted : '"' ∉ rest)
      (uncounted : ∀ digit : Char, digit.isDigit = true → ¬ "count ".toList ++ [digit] <:+: rest)

namespace Attribute

/-- What stands between the quotes. -/
def title : Attribute → List Char
  | wellFormed line column count => profiledTitle line column count
  | malformed rest _ _ => "line ".toList ++ rest

/-- The attribute as it is written. -/
def text (attr : Attribute) : List Char :=
  "title=\"".toList ++ (attr.title ++ ['"'])

def isWellFormed : Attribute → Bool
  | wellFormed .. => true
  | malformed .. => false

/-- The marker that the attribute stands for. -/
def marker? : Attribute → Option Marker
  | wellFormed line column count =>
    some { line := line.value, column := column.value, count := count.value }
  | malformed .. => none

variable (attr : Attribute)

lemma isSome_marker? : attr.marker?.isSome = attr.isWellFormed := by
  cases attr <;> rfl

lemma line_prefix_title : "line".toList <+: attr.title := by
  cases attr with
  | wellFormed line column count => exact ⟨_, rfl⟩
  | malformed rest unquoted uncounted => exact ⟨_, rfl⟩

lemma quote_notMem_title : '"' ∉ attr.title := by
  cases attr with
  | wellFormed line column count =>
    have digits : ∀ {bound : Nat} (numeral : Numeral bound), '"' ∉ numeral.digits :=
      fun numeral hc => absurd (numeral.isDigit _ hc) (by decide)
    have written : (wellFormed line column count).title =
        "line ".toList ++ (line.digits ++ (" char ".toList ++ (column.digits ++
          (" count ".toList ++ count.digits)))) := rfl
    simp only [written, List.mem_append, not_or]
    exact ⟨by decide, digits line, by decide, digits column, by decide, digits count⟩
  | malformed rest unquoted uncounted =>
    have written : (malformed rest unquoted uncounted).title = "line ".toList ++ rest := rfl
    simp only [written, List.mem_append, not_or]
    exact ⟨by decide, unquoted⟩

/-- A `count` does not begin in the `line ` in front of it. -/
lemma ofTitle?_title : ofTitle? attr.title = attr.marker? := by
  cases attr with
  | wellFormed line column count => exact ofTitle?_profiledTitle line column count
  | malformed rest unquoted uncounted =>
    apply ofTitle?_eq_none
    intro digit ascii inside
    have unnamed : Avoids ("count ".toList ++ [digit]) "line ".toList :=
      avoids_of_notMem rfl (by decide)
    exact uncounted digit ascii ((infix_append_iff unnamed).1 inside)

end Attribute

/-- Attributes between texts that hold no beginning of a title. -/
structure Markup where
  front : List Char
  /-- Each attribute with the text behind it. -/
  parts : List (Attribute × List Char)
  front_plain : ¬ titleMark <:+: front
  parts_plain : ∀ part ∈ parts, ¬ titleMark <:+: part.2

namespace Markup

def attributes (markup : Markup) : List Attribute :=
  markup.parts.map Prod.fst

/-- Attributes, each with the text behind it, as they are written. -/
def partsText (parts : List (Attribute × List Char)) : List Char :=
  parts.flatMap fun part => part.1.text ++ part.2

/-- A markup as it is written. -/
def text (markup : Markup) : List Char :=
  markup.front ++ partsText markup.parts

lemma partsText_cons (attr : Attribute) (behind : List Char)
    (parts : List (Attribute × List Char)) :
    partsText ((attr, behind) :: parts) =
      titleOpening ++ (attr.title ++ '"' :: (behind ++ partsText parts)) := by
  have written : attr.text = titleOpening ++ (attr.title ++ ['"']) := rfl
  rw [partsText, List.flatMap_cons, written]
  simp only [List.append_assoc, List.cons_append, List.nil_append, partsText]

lemma partsText_eq_nil_or (parts : List (Attribute × List Char)) :
    partsText parts = [] ∨ titleMark <+: partsText parts := by
  cases parts with
  | nil => exact .inl rfl
  | cons part parts =>
    right
    rw [partsText_cons]
    exact (List.prefix_append_right_inj titleOpening).2
      (part.1.line_prefix_title.trans (List.prefix_append _ _))

/-- The titles of attributes are found, each in its turn. -/
lemma titles_partsText {parts : List (Attribute × List Char)}
    (hparts : ∀ part ∈ parts, ¬ titleMark <:+: part.2) :
    titles (partsText parts) = parts.map fun part => part.1.title := by
  induction parts with
  | nil => rfl
  | cons part parts ih =>
    obtain ⟨first, others⟩ := List.forall_mem_cons.1 hparts
    rw [partsText_cons, titles_attribute part.1.line_prefix_title part.1.quote_notMem_title,
      titles_append first (partsText_eq_nil_or parts), ih others, List.map_cons]

/-- The titles of a markup are those of its attributes. -/
theorem titles_text (markup : Markup) :
    titles markup.text = markup.attributes.map Attribute.title := by
  rw [text, titles_append markup.front_plain (partsText_eq_nil_or markup.parts),
    titles_partsText markup.parts_plain, attributes, List.map_map]
  rfl

/-- **The scan recovers the attributes.**  From any markup come the markers of the well formed
attributes, in order; every other attribute is counted as skipped and takes nothing of its
neighbours with it. -/
theorem scan_text (markup : Markup) :
    scan (String.ofList markup.text) =
      (markup.attributes.filterMap Attribute.marker?,
        { parsed := markup.attributes.countP Attribute.isWellFormed
          skipped := markup.attributes.countP fun attr => !attr.isWellFormed }) := by
  have found : (titles markup.text).filterMap ofTitle? =
      markup.attributes.filterMap Attribute.marker? := by
    rw [titles_text, List.filterMap_map]
    congr 1
    funext attr
    exact attr.ofTitle?_title
  have parsed : (markup.attributes.filterMap Attribute.marker?).length =
      markup.attributes.countP Attribute.isWellFormed := by
    rw [List.length_filterMap_eq_countP]
    simp only [Attribute.isSome_marker?]
  have skipped : (titles markup.text).length - markup.attributes.countP Attribute.isWellFormed =
      markup.attributes.countP fun attr => !attr.isWellFormed := by
    rw [titles_text, List.length_map, List.length_eq_countP_add_countP Attribute.isWellFormed]
    simp
  simp only [scan, String.toList_ofList, found, parsed, skipped]

/-- In front of the first attribute, behind it and behind the second one stands a part of the
beginning of a title.  The first one has its count in a digit that is not ASCII. -/
theorem scan_text_fragments :
    let front := "<p class=\"x\" title=\"lin".toList
    let unreadable := "x count \u0663".toList
    let attributeText := "title=\"line ".toList ++ unreadable ++ ['"']
    let behind := "title=\"".toList
    let title := "title=\"line 3 char 07 count 0\"".toList
    let rest := "\"title=\"li".toList
    scan (String.ofList (front ++ (attributeText ++ behind ++ (title ++ rest)))) =
      ([{ line := 3, column := 7, count := 0 }], { parsed := 1, skipped := 1 }) := by
  intro front unreadable attributeText behind title rest
  have uncounted : ∀ digit : Char, digit.isDigit = true →
      ¬ "count ".toList ++ [digit] <:+: unreadable := by
    intro digit ascii inside
    have none : unreadable.all (fun c => !c.isDigit) = true := by decide
    have other := List.all_eq_true.1 none digit (inside.subset (by simp))
    simp [ascii] at other
  let first := Attribute.malformed unreadable (by decide) uncounted
  let second := Attribute.wellFormed ⟨['3'], by decide, by simp, by decide⟩
    ⟨['0', '7'], by decide, by simp, by decide⟩ ⟨['0'], by decide, by simp, by decide⟩
  have plain : ∀ text ∈ [behind, rest], ¬ titleMark <:+: text := by decide
  let markup : Markup :=
    { front
      parts := [(first, behind), (second, rest)]
      front_plain := by decide
      parts_plain := fun part hpart => plain part.2 (List.mem_map_of_mem hpart) }
  exact scan_text markup

end Markup

end BranchCoverage.Marker
