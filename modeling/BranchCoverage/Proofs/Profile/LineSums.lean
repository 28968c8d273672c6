import BranchCoverage.Profile.LineTable
import Mathlib.Tactic.Common

/-!
# Sums over lines

A line table forgets the markers it was made from.  What attribution asks of it is the statistics of
a group of lines together, and for that nothing is lost: the sum over the lines of any group is what
the markers on these lines count (`sumOver_ofMarkers`), however many of them share a line and
wherever they stand in the annotated source.

The step is `sumRows_alterRows`: adding to the statistics of one line adds to the sum of every group
the line belongs to, and to no other sum.
-/

namespace BranchCoverage

namespace LineStats

@[simp] lemma executed_add (a b : LineStats) : (add a b).executed = a.executed + b.executed := rfl

@[simp] lemma total_add (a b : LineStats) : (add a b).total = a.total + b.total := rfl

lemma ext {a b : LineStats} (executed : a.executed = b.executed) (total : a.total = b.total) :
    a = b := by
  cases a
  cases b
  simp_all

@[simp] lemma add_zero (a : LineStats) : add a zero = a := rfl

lemma add_assoc (a b c : LineStats) : add (add a b) c = add a (add b c) := by
  apply ext
  · simp [Nat.add_assoc]
  · simp [Nat.add_assoc]

lemma add_left_comm (a b c : LineStats) : add a (add b c) = add b (add a c) := by
  apply ext
  · simp [Nat.add_left_comm]
  · simp [Nat.add_left_comm]

/-- The statistics of markers, wherever they stand. -/
def ofList (markers : List Marker) : LineStats :=
  ⟨markers.countP Marker.isExecuted, markers.length⟩

lemma ofList_cons (marker : Marker) (markers : List Marker) :
    ofList (marker :: markers) = add (ofMarker marker) (ofList markers) := by
  apply ext
  · simp [ofList, ofMarker, List.countP_cons, Nat.add_comm]
  · simp [ofList, ofMarker, Nat.add_comm]

/-- Two groups of markers without a common one are counted together. -/
lemma ofList_filter_or {markers : List Marker} {p q r : Marker → Bool}
    (either : ∀ marker, p marker = true ↔ q marker = true ∨ r marker = true)
    (apart : ∀ marker, q marker = true → ¬ r marker = true) :
    ofList (markers.filter p) = add (ofList (markers.filter q)) (ofList (markers.filter r)) := by
  induction markers with
  | nil => rfl
  | cons marker markers ih =>
    have both := either marker
    have never := apart marker
    cases hq : q marker <;> cases hr : r marker
    · have hp : p marker = false := by simpa [hq, hr] using both
      simp only [List.filter_cons, hp, hq, hr, Bool.false_eq_true, if_false, ih]
    · have hp : p marker = true := both.2 (.inr hr)
      simp only [List.filter_cons, hp, hq, hr, Bool.false_eq_true, if_true, if_false]
      rw [ofList_cons, ofList_cons, ih, add_left_comm]
    · have hp : p marker = true := both.2 (.inl hq)
      simp only [List.filter_cons, hp, hq, hr, Bool.false_eq_true, if_true, if_false]
      rw [ofList_cons, ofList_cons, ih, add_assoc]
    · exact absurd hr (never hq)

end LineStats

namespace LineTable

lemma sumRows_cons (wanted : Nat → Bool) (row : LineRow) (rows : List LineRow) :
    sumRows wanted (row :: rows) =
      if wanted row.line then row.stats.add (sumRows wanted rows) else sumRows wanted rows := by
  by_cases h : wanted row.line
  · simp [sumRows, h, LineStats.sum]
  · simp [sumRows, h]

/-- Adding to the statistics of a line adds to the sum of each group with the line. -/
lemma sumRows_alterRows (wanted : Nat → Bool) (line : Nat) (added : LineStats)
    (rows : List LineRow) :
    sumRows wanted (alterRows line added.add rows) =
      if wanted line then added.add (sumRows wanted rows) else sumRows wanted rows := by
  induction rows with
  | nil => rw [alterRows, sumRows_cons, LineStats.add_zero]
  | cons first rest ih =>
    rw [alterRows]
    split
    · rw [sumRows_cons, LineStats.add_zero]
    · split
      · rename_i same
        subst same
        rw [sumRows_cons, sumRows_cons]
        by_cases h : wanted first.line
        · simp only [h, if_true]
          rw [LineStats.add_assoc]
        · simp only [h, Bool.false_eq_true, if_false]
      · rw [sumRows_cons, sumRows_cons, ih]
        by_cases hline : wanted line
        · by_cases hfirst : wanted first.line
          · simp only [hline, hfirst, if_true]
            rw [LineStats.add_left_comm]
          · simp only [hline, hfirst, if_true, Bool.false_eq_true, if_false]
        · simp only [hline, Bool.false_eq_true, if_false]

/-- **Grouping loses no marker.**  The sum over a group of lines is the statistics of the markers on
these lines. -/
theorem sumOver_ofMarkers (markers : List Marker) (wanted : Nat → Bool) :
    (ofMarkers markers).sumOver wanted =
      .ofList (markers.filter fun marker => wanted marker.line) := by
  induction markers with
  | nil => rfl
  | cons marker markers ih =>
    have step : (ofMarkers (marker :: markers)).sumOver wanted =
        if wanted marker.line then
          (LineStats.ofMarker marker).add ((ofMarkers markers).sumOver wanted)
        else (ofMarkers markers).sumOver wanted :=
      sumRows_alterRows wanted marker.line (.ofMarker marker) (ofMarkers markers).rows
    rw [step, ih]
    by_cases h : wanted marker.line
    · rw [if_pos h, List.filter_cons, if_pos h, LineStats.ofList_cons]
    · rw [if_neg h, List.filter_cons, if_neg h]

end LineTable

end BranchCoverage
