import BranchCoverage.Proofs.Profile.LineSums
import Mathlib.Algebra.GroupWithZero.Nat
import Mathlib.Data.List.Perm.Basic

/-!
# What a table keeps of the markers

A table of lines is determined by what can be looked up in it (`LineTable.ext_stats?`), and changing
the statistics of a line changes what is looked up for this line alone (`LineTable.stats?_alter`).
So a table of markers is known line by line: a line with markers has their statistics, and a line
without any has no row (`LineTable.stats?_ofMarkers`).

What is left of a marker is its *observation*: the line of the expression, and whether it ran.  Two
lists of markers give the same table exactly if they hold the same observations, each as often as
the other list does (`LineTable.ofMarkers_eq_iff`); columns, counts and the order are lost.  Markers
from two sources are grouped together by adding the two tables line by line
(`LineTable.stats?_ofMarkers_append`).
-/

namespace BranchCoverage

/-- Where an expression is, and whether it ran. -/
def Marker.observation (marker : Marker) : Nat × Bool :=
  (marker.line, marker.isExecuted)

/-- The markers of a line. -/
def Marker.onLine (line : Nat) (markers : List Marker) : List Marker :=
  markers.filter fun marker => marker.line = line

namespace LineStats

lemma ofList_append (markers markers' : List Marker) :
    ofList (markers ++ markers') = add (ofList markers) (ofList markers') := by
  apply ext
  · exact List.countP_append
  · exact List.length_append

lemma executed_ofList_le (markers : List Marker) :
    (ofList markers).executed ≤ (ofList markers).total :=
  List.countP_le_length

lemma executed_sum (groups : List LineStats) :
    (sum groups).executed = (groups.map executed).sum := by
  induction groups with
  | nil => rfl
  | cons group groups ih => rw [List.map_cons, List.sum_cons, ← ih]; rfl

lemma total_sum (groups : List LineStats) : (sum groups).total = (groups.map total).sum := by
  induction groups with
  | nil => rfl
  | cons group groups ih => rw [List.map_cons, List.sum_cons, ← ih]; rfl

end LineStats

/-! ## Observations -/

namespace Marker

variable {markers markers' : List Marker} {line : Nat}

lemma onLine_eq_nil_iff : onLine line markers = [] ↔ ∀ marker ∈ markers, marker.line ≠ line := by
  simp [onLine]

lemma count_observation (ran : Bool) :
    (markers.map observation).count (line, ran) =
      (onLine line markers).countP fun marker => marker.isExecuted = ran := by
  rw [List.count_eq_countP, List.countP_map, onLine, List.countP_filter]
  apply List.countP_congr
  intro marker _
  simp [observation, and_comm]

lemma count_observation_true :
    (markers.map observation).count (line, true) =
      (LineStats.ofList (onLine line markers)).executed := by
  rw [count_observation]
  simp [LineStats.ofList]

lemma count_observation_add :
    (markers.map observation).count (line, true) + (markers.map observation).count (line, false) =
      (LineStats.ofList (onLine line markers)).total := by
  rw [count_observation, count_observation, LineStats.ofList,
    List.length_eq_countP_add_countP fun marker : Marker => marker.isExecuted = true]
  simp

/-- The same observations are made exactly if the markers of each line have the same statistics. -/
theorem perm_observation_iff :
    (markers.map observation).Perm (markers'.map observation) ↔
      ∀ line, LineStats.ofList (onLine line markers) = LineStats.ofList (onLine line markers') := by
  rw [List.perm_iff_count]
  constructor
  · intro counts line
    apply LineStats.ext
    · rw [← count_observation_true, counts, count_observation_true]
    · rw [← count_observation_add, counts, counts, count_observation_add]
  · rintro same ⟨line, ran⟩
    have executed := congrArg LineStats.executed (same line)
    have total := congrArg LineStats.total (same line)
    rw [← count_observation_true, ← count_observation_true] at executed
    rw [← count_observation_add, ← count_observation_add] at total
    cases ran with
    | true => exact executed
    | false => omega

end Marker

/-! ## Looking lines up -/

namespace LineTable

/-- The statistics of a line among rows. -/
def statsIn? (rows : List LineRow) (line : Nat) : Option LineStats :=
  (rows.find? fun row => row.line = line).map LineRow.stats

/-- The statistics of a line, if the table has it. -/
def stats? (table : LineTable) (line : Nat) : Option LineStats :=
  statsIn? table.rows line

section Rows

variable {row : LineRow} {rows : List LineRow}

lemma statsIn?_cons (row : LineRow) (rows : List LineRow) (line : Nat) :
    statsIn? (row :: rows) line =
      if row.line = line then some row.stats else statsIn? rows line := by
  by_cases h : row.line = line
  · simp [statsIn?, h]
  · simp [statsIn?, h]

lemma statsIn?_eq_none {line : Nat} (h : ∀ row ∈ rows, line < row.line) :
    statsIn? rows line = none := by
  simpa [statsIn?] using fun row hrow => Nat.ne_of_gt (h row hrow)

/-- Rows in ascending order have one row for a line at most, so the rows are what can be looked
up. -/
lemma mem_iff_statsIn? (ascending : Ascending rows) :
    row ∈ rows ↔ statsIn? rows row.line = some row.stats := by
  induction rows with
  | nil => simp [statsIn?]
  | cons first rest ih =>
    obtain ⟨above, ascending⟩ := List.pairwise_cons.1 ascending
    rw [List.mem_cons, statsIn?_cons, ih ascending]
    by_cases same : first.line = row.line
    · have absent : statsIn? rest row.line = none :=
        statsIn?_eq_none fun other hother => same ▸ above other hother
      rw [if_pos same, absent]
      cases first
      cases row
      obtain rfl := same
      simp [eq_comm]
    · rw [if_neg same, or_iff_right]
      rintro rfl
      exact same rfl

lemma statsIn?_alterRows (ascending : Ascending rows) (line : Nat)
    (change : LineStats → LineStats) (other : Nat) :
    statsIn? (alterRows line change rows) other =
      if line = other then some (change ((statsIn? rows line).getD .zero))
      else statsIn? rows other := by
  induction rows with
  | nil =>
    rw [alterRows, statsIn?_cons]
    rfl
  | cons first rest ih =>
    obtain ⟨above, tail⟩ := List.pairwise_cons.1 ascending
    rw [alterRows]
    split
    · rename_i before
      have absent : statsIn? (first :: rest) line = none := by
        refine statsIn?_eq_none (List.forall_mem_cons.2 ⟨before, ?_⟩)
        exact fun row hrow => Nat.lt_trans before (above row hrow)
      rw [statsIn?_cons ⟨line, _⟩, absent]
      rfl
    · split
      · rename_i same
        subst same
        rw [statsIn?_cons ⟨first.line, _⟩, statsIn?_cons first, statsIn?_cons first, if_pos rfl]
        by_cases h : first.line = other
        · rw [if_pos h, if_pos h]
          rfl
        · rw [if_neg h, if_neg h, if_neg h]
      · rename_i different
        rw [statsIn?_cons first, ih tail, statsIn?_cons first, statsIn?_cons first,
          if_neg (Ne.symm different)]
        by_cases h : first.line = other
        · have apart : line ≠ other := fun same => different (same.trans h.symm)
          rw [if_pos h, if_neg apart, if_pos h]
        · rw [if_neg h, if_neg h]

end Rows

variable {table table' : LineTable} {row : LineRow} {line : Nat}

lemma mem_rows_iff : row ∈ table.rows ↔ table.stats? row.line = some row.stats :=
  mem_iff_statsIn? table.ascending

/-- Changing the statistics of a line changes nothing else. -/
theorem stats?_alter (line : Nat) (change : LineStats → LineStats) (table : LineTable)
    (other : Nat) :
    (table.alter line change).stats? other =
      if line = other then some (change ((table.stats? line).getD .zero))
      else table.stats? other :=
  statsIn?_alterRows table.ascending line change other

/-- Tables in which the same can be looked up are equal. -/
theorem ext_stats? (h : ∀ line, table.stats? line = table'.stats? line) : table = table' := by
  have nodup : ∀ table : LineTable, table.rows.Nodup := by
    intro table
    refine table.ascending.imp ?_
    rintro row _ before rfl
    exact Nat.lt_irrefl _ before
  have members : ∀ row, row ∈ table.rows ↔ row ∈ table'.rows := by
    intro row
    rw [mem_rows_iff, mem_rows_iff, h]
  have rows : table.rows = table'.rows :=
    List.Perm.eq_of_pairwise (fun _ _ _ _ before behind => absurd behind (Nat.lt_asymm before))
      table.ascending table'.ascending
      ((List.perm_ext_iff_of_nodup (nodup table) (nodup table')).2 members)
  cases table
  cases table'
  obtain rfl := rows
  rfl

/-! ## Tables of markers -/

open Marker

/-- A line has the statistics of its markers; a line without a marker is not in the table. -/
theorem stats?_ofMarkers (markers : List Marker) (line : Nat) :
    (ofMarkers markers).stats? line =
      if onLine line markers = [] then none else some (.ofList (onLine line markers)) := by
  induction markers with
  | nil => rfl
  | cons marker markers ih =>
    have added : (ofMarkers (marker :: markers)).stats? line = _ :=
      stats?_alter marker.line (.add (.ofMarker marker)) (ofMarkers markers) line
    rw [added]
    by_cases here : marker.line = line
    · subst here
      have grouped : onLine marker.line (marker :: markers) =
          marker :: onLine marker.line markers := by
        simp [onLine]
      rw [if_pos rfl, ih, grouped, if_neg (List.cons_ne_nil _ _), LineStats.ofList_cons]
      by_cases none : onLine marker.line markers = []
      · rw [if_pos none, none]
        rfl
      · rw [if_neg none]
        rfl
    · have grouped : onLine line (marker :: markers) = onLine line markers := by
        simp [onLine, here]
      rw [if_neg here, ih, grouped]

/-- **What a table remembers.**  Two lists of markers give the same table exactly if they hold the
same observations, each as often as the other list. -/
theorem ofMarkers_eq_iff {markers markers' : List Marker} :
    ofMarkers markers = ofMarkers markers' ↔
      (markers.map observation).Perm (markers'.map observation) := by
  rw [perm_observation_iff]
  constructor
  · intro same line
    have sum := congrArg (fun table => table.sumOver fun other => other = line) same
    rwa [sumOver_ofMarkers, sumOver_ofMarkers] at sum
  · intro same
    apply ext_stats?
    intro line
    have empty : onLine line markers = [] ↔ onLine line markers' = [] := by
      have total := congrArg LineStats.total (same line)
      rw [← List.length_eq_zero_iff, ← List.length_eq_zero_iff]
      exact Eq.congr_left total
    rw [stats?_ofMarkers, stats?_ofMarkers, same]
    exact if_congr empty rfl rfl

/-- It does not matter from which end the markers are taken. -/
lemma foldl_addMarker (markers : List Marker) :
    markers.foldl (fun table marker => table.addMarker marker) empty = ofMarkers markers := by
  rw [List.foldl_eq_foldr_reverse]
  exact ofMarkers_eq_iff.2 ((List.reverse_perm markers).map observation)

/-- Markers of two sources are grouped by adding the two tables line by line. -/
theorem stats?_ofMarkers_append (markers markers' : List Marker) (line : Nat) :
    (ofMarkers (markers ++ markers')).stats? line =
      Option.merge .add ((ofMarkers markers).stats? line) ((ofMarkers markers').stats? line) := by
  have both : onLine line (markers ++ markers') = onLine line markers ++ onLine line markers' := by
    simp [onLine]
  rw [stats?_ofMarkers, stats?_ofMarkers, stats?_ofMarkers, both]
  by_cases first : onLine line markers = []
  · by_cases second : onLine line markers' = []
    · simp [first, second]
    · simp [first, second]
  · by_cases second : onLine line markers' = []
    · simp [first, second]
    · simp [first, second, LineStats.ofList_append]

lemma mem_rows_ofMarkers {markers : List Marker} {row : LineRow} :
    row ∈ (ofMarkers markers).rows ↔
      onLine row.line markers ≠ [] ∧ row.stats = .ofList (onLine row.line markers) := by
  rw [mem_rows_iff, stats?_ofMarkers]
  by_cases none : onLine row.line markers = []
  · simp [none]
  · simp [none, eq_comm]

/-- A table accounts for markers: it has a row for each line with a marker and for no other one, and
its rows count every expression once. -/
structure AccountsFor (table : LineTable) (markers : List Marker) : Prop where
  lines : ∀ line, line ∈ table.rows.map LineRow.line ↔ line ∈ markers.map Marker.line
  bounds : ∀ row ∈ table.rows, row.stats.executed ≤ row.stats.total ∧ 1 ≤ row.stats.total
  executed : (table.rows.map fun row => row.stats.executed).sum = markers.countP isExecuted
  total : (table.rows.map fun row => row.stats.total).sum = markers.length

/-- The table of markers accounts for them. -/
theorem accountsFor_ofMarkers (markers : List Marker) :
    (ofMarkers markers).AccountsFor markers := by
  have all : LineStats.sum ((ofMarkers markers).rows.map LineRow.stats) = .ofList markers := by
    have sum := sumOver_ofMarkers markers fun _ => true
    rwa [List.filter_true, sumOver, sumRows, List.filter_true] at sum
  constructor
  case lines =>
    intro line
    have occupied : line ∈ markers.map Marker.line ↔ onLine line markers ≠ [] := by
      rw [ne_eq, onLine_eq_nil_iff]
      simp
    rw [occupied, List.mem_map]
    constructor
    · rintro ⟨row, hrow, rfl⟩
      exact (mem_rows_ofMarkers.1 hrow).1
    · intro some
      exact ⟨⟨line, .ofList (onLine line markers)⟩, mem_rows_ofMarkers.2 ⟨some, rfl⟩, rfl⟩
  case bounds =>
    intro row hrow
    obtain ⟨some, stats⟩ := mem_rows_ofMarkers.1 hrow
    rw [stats]
    exact ⟨LineStats.executed_ofList_le _, List.length_pos_iff.2 some⟩
  case executed =>
    have executed := congrArg LineStats.executed all
    rwa [LineStats.executed_sum, List.map_map] at executed
  case total =>
    have total := congrArg LineStats.total all
    rwa [LineStats.total_sum, List.map_map] at total

end LineTable

end BranchCoverage
