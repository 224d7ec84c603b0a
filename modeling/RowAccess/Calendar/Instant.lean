import RowAccess.Calendar.Date

/-!
# Instants

The moment of a write, counted in seconds and nanoseconds from the start of 1970 in UTC, and its
text as an internet timestamp.
-/

namespace RowAccess

/-- A moment: seconds since the start of 1970 and nanoseconds within the second. A leap second is
the preceding second with `10⁹` nanoseconds or more. -/
structure Instant where
  seconds : Int
  nanoseconds : Nat
  deriving DecidableEq, Repr

namespace Instant

/-- The date a number of days after the start of 1970. The count runs over eras of 400 years that
begin in March, so that a leap day is the last day of its year. -/
def dateOfDay (day : Int) : Date :=
  let shifted := day + 719468
  let era := shifted / 146097
  let dayOfEra := (shifted % 146097).toNat
  let yearOfEra :=
    (dayOfEra - dayOfEra / 1460 + dayOfEra / 36524 - dayOfEra / 146096) / 365
  let dayOfYear := dayOfEra - (365 * yearOfEra + yearOfEra / 4 - yearOfEra / 100)
  let marchMonth := (5 * dayOfYear + 2) / 153
  let day := dayOfYear - (153 * marchMonth + 2) / 5 + 1
  let month := if marchMonth < 10 then marchMonth + 3 else marchMonth - 9
  ⟨yearOfEra + era * 400 + (if month ≤ 2 then 1 else 0), month, day⟩

/-- The fraction of a second: none, or three, six or nine digits, the fewest that are exact. -/
def fractionText (nanoseconds : Nat) : String :=
  if nanoseconds = 0 then ""
  else if nanoseconds % 1000000 = 0 then "." ++ Text.writePadded 3 (nanoseconds / 1000000)
  else if nanoseconds % 1000 = 0 then "." ++ Text.writePadded 6 (nanoseconds / 1000)
  else "." ++ Text.writePadded 9 nanoseconds

/-- The text `YYYY-MM-DDThh:mm:ss+00:00` with the fraction of a second. -/
def render (t : Instant) : String :=
  let day := t.seconds / 86400
  let second := (t.seconds % 86400).toNat
  let leap := 1000000000 ≤ t.nanoseconds
  let fraction := if leap then t.nanoseconds - 1000000000 else t.nanoseconds
  (dateOfDay day).render ++ "T" ++ Text.writePadded 2 (second / 3600) ++ ":" ++
    Text.writePadded 2 (second / 60 % 60) ++ ":" ++
    Text.writePadded 2 (second % 60 + (if leap then 1 else 0)) ++ fractionText fraction ++ "+00:00"

end Instant

end RowAccess
