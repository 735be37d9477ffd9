import SealedEnvelope.Number.Double
import SealedEnvelope.Text.Basic

/-!
# Instants

An instant is a whole number of milliseconds since the beginning of 1970, at most 100 million days
away from it. Its text is the date and time of day in the proleptic Gregorian calendar, in UTC.
-/

namespace SealedEnvelope

namespace Calendar

def furthest : Nat := 8640000000000000

/-- The instant of a number of milliseconds, a fraction dropped, if it is in range. -/
def instant? (milliseconds : Double) : Option Int :=
  match milliseconds.truncate? with
  | some ms => if ms.natAbs ≤ furthest then some ms else none
  | none => none

/-- Year, month and day of the day that begins `days` days after the beginning of 1970. Years are
counted from March, so that the leap day is the last of its year, in eras of 400 years. -/
def civil (days : Int) : Int × Nat × Nat :=
  let shifted := days + 719468
  let era := shifted / 146097
  let dayOfEra := (shifted % 146097).toNat
  let yearOfEra := (dayOfEra - dayOfEra / 1460 + dayOfEra / 36524 - dayOfEra / 146096) / 365
  let dayOfYear := dayOfEra - (365 * yearOfEra + yearOfEra / 4 - yearOfEra / 100)
  let marchMonth := (5 * dayOfYear + 2) / 153
  let day := dayOfYear - (153 * marchMonth + 2) / 5 + 1
  let month := if marchMonth < 10 then marchMonth + 3 else marchMonth - 9
  let year := era * 400 + yearOfEra + (if month ≤ 2 then 1 else 0)
  (year, month, day)

/-- Four digits, or a sign and six digits outside the years 0 to 9999. -/
def yearText (year : Int) : Text :=
  if 0 ≤ year ∧ year ≤ 9999 then Text.ofNatPadded 4 year.toNat
  else (if year < 0 then 0x2D else 0x2B) :: Text.ofNatPadded 6 year.natAbs

/-- Date and time to the millisecond, such as `2000-02-29T00:00:00.000Z`. -/
def text (instant : Int) : Text :=
  let (year, month, day) := civil (instant / 86400000)
  let ms := (instant % 86400000).toNat
  .concat [yearText year, "-", .ofNatPadded 2 month, "-", .ofNatPadded 2 day, "T",
    .ofNatPadded 2 (ms / 3600000), ":", .ofNatPadded 2 (ms / 60000 % 60), ":",
    .ofNatPadded 2 (ms / 1000 % 60), ".", .ofNatPadded 3 (ms % 1000), "Z"]

end Calendar
end SealedEnvelope
