import BranchCoverage.Profile.Marker

/-!
# Line tables

Markers are grouped by line: for each line that has any, how many expressions it has and how many of
them ran.  Neither the column nor the exact count of a marker survives, and neither does the order
of the markers.

A `LineTable` lists its lines in strictly ascending order, each of them once.  `alter` is the one
operation that changes a table, and keeping the order is part of it, so the order is a field of the
type and never has to be proved again.
-/

namespace BranchCoverage

/-- How many expressions there are, and how many of them ran at least once. -/
structure LineStats where
  executed : Nat
  total : Nat
  deriving DecidableEq, Repr, Inhabited

namespace LineStats

def zero : LineStats := ⟨0, 0⟩

/-- The expressions of two disjoint groups together. -/
def add (a b : LineStats) : LineStats :=
  ⟨a.executed + b.executed, a.total + b.total⟩

def ofMarker (marker : Marker) : LineStats :=
  ⟨if marker.isExecuted then 1 else 0, 1⟩

/-- The expressions of many disjoint groups together. -/
def sum (groups : List LineStats) : LineStats :=
  groups.foldr add zero

end LineStats

structure LineRow where
  line : Nat
  stats : LineStats
  deriving DecidableEq, Repr, Inhabited

namespace LineTable

/-- Replaces the statistics of a line by `change` of them, in a list of rows in ascending order.  A
line without a row has the statistics zero, and gets its row at its place. -/
def alterRows (line : Nat) (change : LineStats → LineStats) : List LineRow → List LineRow
  | [] => [⟨line, change .zero⟩]
  | row :: rows =>
    if line < row.line then ⟨line, change .zero⟩ :: row :: rows
    else if line = row.line then ⟨line, change row.stats⟩ :: rows
    else row :: alterRows line change rows

def Ascending (rows : List LineRow) : Prop :=
  rows.Pairwise fun a b => a.line < b.line

theorem mem_alterRows_line {line : Nat} {change : LineStats → LineStats} {rows : List LineRow}
    {row : LineRow} (h : row ∈ alterRows line change rows) :
    row.line = line ∨ ∃ old ∈ rows, old.line = row.line := by
  induction rows with
  | nil => simp_all [alterRows]
  | cons first rest ih =>
    rw [alterRows] at h
    split at h
    · rcases List.mem_cons.1 h with rfl | h
      · exact .inl rfl
      · exact .inr ⟨row, h, rfl⟩
    · split at h
      · rcases List.mem_cons.1 h with rfl | h
        · exact .inl rfl
        · exact .inr ⟨row, .tail _ h, rfl⟩
      · rcases List.mem_cons.1 h with rfl | h
        · exact .inr ⟨row, .head _, rfl⟩
        · rcases ih h with same | ⟨old, mem, same⟩
          · exact .inl same
          · exact .inr ⟨old, .tail _ mem, same⟩

theorem ascending_alterRows (line : Nat) (change : LineStats → LineStats) {rows : List LineRow}
    (h : Ascending rows) : Ascending (alterRows line change rows) := by
  induction rows with
  | nil => exact List.pairwise_singleton _ _
  | cons first rest ih =>
    obtain ⟨above, tail⟩ := List.pairwise_cons.1 h
    rw [alterRows]
    split
    · rename_i before
      refine List.pairwise_cons.2 ⟨?_, h⟩
      intro row mem
      rcases List.mem_cons.1 mem with rfl | mem
      · exact before
      · exact Nat.lt_trans before (above row mem)
    · split
      · rename_i same
        refine List.pairwise_cons.2 ⟨?_, tail⟩
        intro row mem
        rw [same]
        exact above row mem
      · refine List.pairwise_cons.2 ⟨?_, ih tail⟩
        intro row mem
        rcases mem_alterRows_line mem with same | ⟨old, oldMem, same⟩
        · omega
        · rw [← same]
          exact above old oldMem

end LineTable

structure LineTable where
  rows : List LineRow
  ascending : LineTable.Ascending rows
  deriving DecidableEq, Repr

namespace LineTable

def empty : LineTable :=
  ⟨[], List.Pairwise.nil⟩

/-- Replaces the statistics of a line by `change` of them, where a line that is not in the table has
the statistics zero. -/
def alter (line : Nat) (change : LineStats → LineStats) (table : LineTable) : LineTable :=
  ⟨alterRows line change table.rows, ascending_alterRows line change table.ascending⟩

def addMarker (marker : Marker) (table : LineTable) : LineTable :=
  table.alter marker.line (.add (.ofMarker marker))

def ofMarkers (markers : List Marker) : LineTable :=
  markers.foldr addMarker empty

/-- The statistics of the rows whose lines `wanted` accepts, together. -/
def sumRows (wanted : Nat → Bool) (rows : List LineRow) : LineStats :=
  .sum ((rows.filter fun row => wanted row.line).map LineRow.stats)

/-- The statistics of all lines that `wanted` accepts, together. -/
def sumOver (table : LineTable) (wanted : Nat → Bool) : LineStats :=
  sumRows wanted table.rows

end LineTable

end BranchCoverage
