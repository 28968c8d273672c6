import BranchCoverage.Number.Text

/-!
# Timestamps

A report says when it was made: date and time of day in universal time, with the fraction of the
second, as in `2024-02-29T12:00:00.250+00:00`.  The input is the time since the first of January
1970.

The calendar is computed in years that begin in March, so that the leap day is the last day of a
year, and in eras of 400 such years, which all have the same number of days.
-/

namespace BranchCoverage

structure Date where
  year : Nat
  month : Nat
  day : Nat
  deriving DecidableEq, Repr

namespace Date

def daysPerEra : Nat := 146097

/-- The number of days from the first of March of the year zero to the first of January 1970. -/
def daysBeforeEpoch : Nat := 719468

/-- The day that is `days` days after the first of January 1970. -/
def ofDays (days : Nat) : Date :=
  let day := days + daysBeforeEpoch
  let dayOfEra := day % daysPerEra
  let yearOfEra :=
    (dayOfEra - dayOfEra / 1460 + dayOfEra / 36524 - dayOfEra / 146096) / 365
  let dayOfYear := dayOfEra - (365 * yearOfEra + yearOfEra / 4 - yearOfEra / 100)
  let monthFromMarch := (5 * dayOfYear + 2) / 153
  let month := if monthFromMarch < 10 then monthFromMarch + 3 else monthFromMarch - 9
  let year := yearOfEra + 400 * (day / daysPerEra)
  { year := if month ≤ 2 then year + 1 else year
    month
    day := dayOfYear - (153 * monthFromMarch + 2) / 5 + 1 }

/-- The epoch itself, a leap day, and the first day of a year that is no leap year. -/
example : ofDays 0 = ⟨1970, 1, 1⟩ ∧ ofDays 19782 = ⟨2024, 2, 29⟩ ∧ ofDays 47482 = ⟨2100, 1, 1⟩ := by
  decide

end Date

/-- A number in at least `width` digits. -/
def zeroPadded (width n : Nat) : String :=
  String.ofList (Number.padded width n)

/-- The fraction of a second with a point in front, in whole groups of three digits. -/
def secondFraction (nanoseconds : Nat) : String :=
  if nanoseconds = 0 then ""
  else if nanoseconds % 1000000 = 0 then "." ++ zeroPadded 3 (nanoseconds / 1000000)
  else if nanoseconds % 1000 = 0 then "." ++ zeroPadded 6 (nanoseconds / 1000)
  else "." ++ zeroPadded 9 nanoseconds

/-- The time that is a number of seconds and nanoseconds after the first of January 1970. -/
def timestampText (seconds nanoseconds : Nat) : String :=
  let date := Date.ofDays (seconds / 86400)
  let time := seconds % 86400
  zeroPadded 4 date.year ++ "-" ++ zeroPadded 2 date.month ++ "-" ++ zeroPadded 2 date.day ++ "T"
    ++ zeroPadded 2 (time / 3600) ++ ":" ++ zeroPadded 2 (time / 60 % 60) ++ ":"
    ++ zeroPadded 2 (time % 60) ++ secondFraction nanoseconds ++ "+00:00"

end BranchCoverage
