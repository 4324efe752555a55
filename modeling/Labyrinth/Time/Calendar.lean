/-!
# Calendar time

Timestamps of the Gregorian calendar in universal time, from the milliseconds since 1970.
-/

namespace Labyrinth.Calendar

structure Date where
  year : Nat
  month : Nat
  day : Nat
deriving DecidableEq

/-- The date of a day counted from the first of January 1970. Years are counted from March, so that
a leap day ends its year. -/
def dateOfDay (day : Nat) : Date :=
  let z := day + 719468
  let era := z / 146097
  let dayOfEra := z % 146097
  let yearOfEra := (dayOfEra - dayOfEra / 1460 + dayOfEra / 36524 - dayOfEra / 146096) / 365
  let dayOfYear := dayOfEra - (365 * yearOfEra + yearOfEra / 4 - yearOfEra / 100)
  let shifted := (5 * dayOfYear + 2) / 153
  let month := if shifted < 10 then shifted + 3 else shifted - 9
  ⟨yearOfEra + era * 400 + (if month ≤ 2 then 1 else 0), month,
    dayOfYear - (153 * shifted + 2) / 5 + 1⟩

def padded (width n : Nat) : String :=
  let digits := toString n
  String.ofList (List.replicate (width - digits.length) '0') ++ digits

def timestamp (millis : Nat) : String :=
  let d := dateOfDay (millis / 86400000)
  let t := millis % 86400000
  padded 4 d.year ++ "-" ++ padded 2 d.month ++ "-" ++ padded 2 d.day ++ "T" ++
    padded 2 (t / 3600000) ++ ":" ++ padded 2 (t / 60000 % 60) ++ ":" ++ padded 2 (t / 1000 % 60) ++
    "." ++ padded 3 (t % 1000) ++ "Z"

end Labyrinth.Calendar
