import ThreeAddress.Text.Basic

/-!
# Times of day and dates

Times are microseconds since the beginning of 1970, negative before.  Dates follow the Gregorian
calendar, which repeats every 146097 days.
-/

namespace ThreeAddress

namespace Clock

/-- Microseconds per second. -/
def second : Int := 1000000

/-- Microseconds per day. -/
def day : Int := 86400 * second

/-- A number of at least `width` digits. -/
def padded (width : Nat) (n : Int) : Text := Text.zeroPad width (Text.ofNat n.toNat)

/-- The time of day, to the microsecond. -/
def timeOfDay (t : Int) : Text :=
  let rest := t.fmod day
  let seconds := rest / second
  padded 2 (seconds / 3600) ++ ":" ++ padded 2 (seconds / 60 % 60) ++ ":" ++
    padded 2 (seconds % 60) ++ "." ++ padded 6 (rest % second)

/-- Year, month and day of a day counted from the beginning of 1970.  The count goes over to years
that begin in March, so that the leap day comes last. -/
def civil (days : Int) : Int × Int × Int :=
  let z := days + 719468
  let era := z.fdiv 146097
  let dayOfEra := z - era * 146097
  let yearOfEra := (dayOfEra - dayOfEra / 1460 + dayOfEra / 36524 - dayOfEra / 146096) / 365
  let dayOfYear := dayOfEra - (365 * yearOfEra + yearOfEra / 4 - yearOfEra / 100)
  let month := (5 * dayOfYear + 2) / 153
  let dayOfMonth := dayOfYear - (153 * month + 2) / 5 + 1
  let month := if month < 10 then month + 3 else month - 9
  (yearOfEra + era * 400 + (if month ≤ 2 then 1 else 0), month, dayOfMonth)

/-- Date and time in universal time. -/
def dateTime (t : Int) : Text :=
  let (y, m, d) := civil (t.fdiv day)
  let year : Text := if y < 0 then "-" ++ padded 4 (-y) else padded 4 y
  year ++ "-" ++ padded 2 m ++ "-" ++ padded 2 d ++ "T" ++ timeOfDay t ++ "Z"

end Clock

end ThreeAddress
