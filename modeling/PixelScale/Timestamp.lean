import PixelScale.Text

/-!
# Timestamps

The date and time of a moment in UTC, as `YYYY-MM-DDTHH:MM:SSZ`. Years are counted from March on, so
that a leap day is the last day of its year, and 400 years make an era of a fixed number of days.
-/

namespace PixelScale.Timestamp

/-- Year, month and day of the given day, counted from the first day of 1970. -/
def date (days : Nat) : Nat × Nat × Nat :=
  let shifted := days + 719468
  let era := shifted / 146097
  let day := shifted % 146097
  let year := (day - day / 1460 + day / 36524 - day / 146096) / 365
  let dayOfYear := day - (365 * year + year / 4 - year / 100)
  let month := (5 * dayOfYear + 2) / 153
  let calendarMonth := if month < 10 then month + 3 else month - 9
  (year + era * 400 + (if calendarMonth ≤ 2 then 1 else 0), calendarMonth,
    dayOfYear - (153 * month + 2) / 5 + 1)

/-- The text for a moment, given by the seconds since the start of 1970. -/
def ofSeconds (seconds : Nat) : Text :=
  let (year, month, day) := date (seconds / 86400)
  let rest := seconds % 86400
  Text.padded 4 year ++ '-' :: Text.padded 2 month ++ '-' :: Text.padded 2 day ++
    'T' :: Text.padded 2 (rest / 3600) ++ ':' :: Text.padded 2 (rest % 3600 / 60) ++
    ':' :: Text.padded 2 (rest % 60) ++ ['Z']

end PixelScale.Timestamp
