/-
Points in time as they are logged, in the form of ISO 8601 and in UTC.

* `Date.ofDays` — the date of a number of days after the first of January 1970;
* `timestamp` — a point in time as a text.
-/

namespace Rollout

/-- A date of the Gregorian calendar. -/
structure Date where
  year : Nat
  month : Nat
  day : Nat
deriving DecidableEq, Repr

/-- The date of a number of days after the first of January 1970.  Days are counted in eras of 400
years that begin in March, so that a leap day is the last day of its year. -/
def Date.ofDays (days : Nat) : Date :=
  let shifted := days + 719468
  let dayOfEra := shifted % 146097
  let yearOfEra := (dayOfEra - dayOfEra / 1460 + dayOfEra / 36524 - dayOfEra / 146096) / 365
  let dayOfYear := dayOfEra - (365 * yearOfEra + yearOfEra / 4 - yearOfEra / 100)
  let shiftedMonth := (5 * dayOfYear + 2) / 153
  let month := if shiftedMonth < 10 then shiftedMonth + 3 else shiftedMonth - 9
  let year := yearOfEra + shifted / 146097 * 400 + if month ≤ 2 then 1 else 0
  ⟨year, month, dayOfYear - (153 * shiftedMonth + 2) / 5 + 1⟩

/-- A number with zeros in front, up to a width. -/
def zeroPadded (width n : Nat) : String :=
  let digits := toString n
  .ofList (List.replicate (width - digits.length) '0') ++ digits

/-- The text of a point in time, given in seconds and microseconds after the beginning of 1970. -/
def timestamp (seconds microseconds : Nat) : String :=
  let date := Date.ofDays (seconds / 86400)
  zeroPadded 4 date.year ++ "-" ++ zeroPadded 2 date.month ++ "-" ++ zeroPadded 2 date.day
    ++ "T" ++ zeroPadded 2 (seconds / 3600 % 24) ++ ":" ++ zeroPadded 2 (seconds / 60 % 60)
    ++ ":" ++ zeroPadded 2 (seconds % 60) ++ "." ++ zeroPadded 6 microseconds ++ "Z"

end Rollout
