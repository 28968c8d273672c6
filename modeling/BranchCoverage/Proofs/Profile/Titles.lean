import BranchCoverage.Profile.Marker
import BranchCoverage.Proofs.Text.Search
import Mathlib.Data.List.Infix

/-!
# Where a marker comes from

Markers are what is left of an annotated source once it has been scanned.  A marker that the scan
gives is written in the source: there is an attribute whose quoted text is a title of the marker
(`Marker.writtenIn_of_mem_scan`), since every title that the scan finds stands in the source
(`Marker.infix_of_mem_titles`).
-/

namespace BranchCoverage.Marker

open Text

variable {text title : List Char}

/-- A text with a closing quote is the text up to the quote, the quote, and the text behind it. -/
lemma closed?_eq_some {inside rest : List Char} (h : closed? text = some (inside, rest)) :
    text = inside ++ '"' :: rest := by
  rw [closed?] at h
  split at h
  · cases h
  · rename_i first behind found
    obtain ⟨rfl, rfl⟩ := Prod.mk.inj (Option.some.inj h)
    have stops := List.head?_dropWhile_not (· ≠ '"') text
    rw [found] at stops
    have quote : first = '"' := by simpa using stops
    calc
      text = text.takeWhile (· ≠ '"') ++ text.dropWhile (· ≠ '"') :=
        List.takeWhile_append_dropWhile.symm
      _ = text.takeWhile (· ≠ '"') ++ '"' :: behind := by rw [found, quote]

/-- A text that begins with the mark of a title is its opening and the text behind the opening. -/
lemma eq_titleOpening_append (h : titleMark.isPrefixOf text = true) :
    text = titleOpening ++ text.drop titleOpening.length := by
  have opening : titleOpening <+: text := by
    have split : titleMark = titleOpening ++ "line".toList := by decide
    have begins : titleMark <+: text := List.isPrefixOf_iff_prefix.1 h
    exact (split ▸ List.prefix_append titleOpening _).trans begins
  exact (List.prefix_iff_eq_append.1 opening).symm

/-- A title at the start of a text stands there in its attribute. -/
lemma titleAt?_eq_some {width : Nat} (h : titleAt? text = some (title, width)) :
    titleOpening ++ title ++ ['"'] <+: text := by
  rw [titleAt?] at h
  split at h
  · rename_i mark
    obtain ⟨⟨inside, behind⟩, closed, same⟩ := Option.map_eq_some_iff.1 h
    obtain ⟨rfl, -⟩ := Prod.mk.inj same
    have opened := eq_titleOpening_append mark
    rw [closed?_eq_some closed] at opened
    refine ⟨behind, ?_⟩
    rw [opened]
    simp
  · cases h

/-- A title that the scan finds stands in the text. -/
lemma infix_of_mem_titles (h : title ∈ titles text) : titleOpening ++ title ++ ['"'] <:+: text := by
  obtain ⟨behind, width, suffix, found⟩ := exists_suffix_of_mem_findEachFrom h
  exact (titleAt?_eq_some found).isInfix.trans suffix.isInfix

/-- A marker is written in a text: the text holds, in the quotes of its attribute, a title of the
marker. -/
def WrittenIn (text : List Char) (marker : Marker) : Prop :=
  ∃ title, titleOpening ++ title ++ ['"'] <:+: text ∧ ofTitle? title = some marker

/-- Every marker of an annotated source is written in it. -/
theorem writtenIn_of_mem_scan {annotated : String} {marker : Marker}
    (h : marker ∈ (scan annotated).1) : marker.WrittenIn annotated.toList := by
  obtain ⟨title, htitle, named⟩ := List.mem_filterMap.1 h
  exact ⟨title, infix_of_mem_titles htitle, named⟩

end BranchCoverage.Marker
