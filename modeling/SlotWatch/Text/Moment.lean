import SlotWatch.Text.Numeral

/-!
# SlotWatch.Text.Moment

Moments as texts: date and time in universal time, to the second.
-/

namespace SlotWatch.Text

/-- A numeral filled with zeros up to `width`. -/
def padded (width n : Nat) : String :=
  let digits := Nat.toDigits 10 n
  String.ofList (List.replicate (width - digits.length) '0' ++ digits)

/-- Year, month and day of a date, given the days since the first of January 1970.
Years are counted from March, so that a leap day is the last day of a year. -/
def calendarDate (days : Nat) : Nat × Nat × Nat :=
  let day := days + 719468
  let inEra := day % 146097
  let yearOfEra := (inEra - inEra / 1460 + inEra / 36524 - inEra / 146096) / 365
  let dayOfYear := inEra - (365 * yearOfEra + yearOfEra / 4 - yearOfEra / 100)
  let fromMarch := (5 * dayOfYear + 2) / 153
  let month := if fromMarch < 10 then fromMarch + 3 else fromMarch - 9
  let year := day / 146097 * 400 + yearOfEra + if month ≤ 2 then 1 else 0
  (year, month, dayOfYear - (153 * fromMarch + 2) / 5 + 1)

/-- A moment, given the seconds since 1970 began. -/
def moment (seconds : Nat) : String :=
  let (year, month, day) := calendarDate (seconds / 86400)
  let second := seconds % 86400
  padded 4 year ++ "-" ++ padded 2 month ++ "-" ++ padded 2 day ++ "T"
    ++ padded 2 (second / 3600) ++ ":" ++ padded 2 (second / 60 % 60) ++ ":"
    ++ padded 2 (second % 60) ++ "Z"

end SlotWatch.Text
