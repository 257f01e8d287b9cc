/-!
# Timestamps

A date and time of day, and the form it takes in the name of an archive directory.
-/

namespace SqlScript

structure Timestamp where
  year : Int
  month : Nat
  day : Nat
  hour : Nat
  minute : Nat
  second : Nat
deriving DecidableEq, Repr, Inhabited

namespace Timestamp

/-- Decimal digits, with zeros in front up to the width. -/
def padded (width n : Nat) : String :=
  let digits := toString n
  String.ofList (List.replicate (width - digits.length) '0') ++ digits

/-- At least four digits; a sign stands before every year outside 0 to 9999. -/
def yearText (year : Int) : String :=
  let digits := padded 4 year.natAbs
  if year < 0 then "-" ++ digits else if 9999 < year then "+" ++ digits else digits

/-- Year, month and day, then hour, minute and second. -/
def text (t : Timestamp) : String :=
  yearText t.year ++ "-" ++ padded 2 t.month ++ "-" ++ padded 2 t.day ++ "_" ++
    padded 2 t.hour ++ "-" ++ padded 2 t.minute ++ "-" ++ padded 2 t.second

/--
The date of a day counted from 1970-01-01. Eras of 400 years start in March, so that the leap day
ends a year.
-/
def dateOfDay (day : Int) : Int × Nat × Nat :=
  let shifted := day + 719468
  let era := Int.fdiv shifted 146097
  let dayOfEra := (Int.fmod shifted 146097).toNat
  let yearOfEra := (dayOfEra - dayOfEra / 1460 + dayOfEra / 36524 - dayOfEra / 146096) / 365
  let dayOfYear := dayOfEra - (365 * yearOfEra + yearOfEra / 4 - yearOfEra / 100)
  let march := (5 * dayOfYear + 2) / 153
  let month := if march < 10 then march + 3 else march - 9
  let year := era * 400 + yearOfEra + (if month ≤ 2 then 1 else 0)
  (year, month, dayOfYear - (153 * march + 2) / 5 + 1)

/-- The moment this many seconds after 1970-01-01 00:00:00. -/
def ofSeconds (seconds : Int) : Timestamp :=
  let (year, month, day) := dateOfDay (Int.fdiv seconds 86400)
  let rest := (Int.fmod seconds 86400).toNat
  ⟨year, month, day, rest / 3600, rest / 60 % 60, rest % 60⟩

example : (ofSeconds 1709993107).text = "2024-03-09_14-05-07" := by decide +kernel

example : (ofSeconds (-1)).text = "1969-12-31_23-59-59" := by decide +kernel

end Timestamp

end SqlScript
