import Mathlib.Data.Int.Basic

/-!
# Dates and durations

A date is a number of nanoseconds since 1970-01-01T00:00:00 UTC and a duration is a
number of nanoseconds. An addition of the two panics when the year of the result
exceeds 262143.
-/
namespace Beachhead

namespace Duration

def microseconds (n : ℤ) : ℤ := 1000 * n

def seconds (n : ℤ) : ℤ := 1000000000 * n

end Duration

namespace DateTime

/-- Days from 0001-01-01 to the first day of a year in the Gregorian calendar. -/
def daysBeforeYear (year : ℕ) : ℕ :=
  365 * (year - 1) + (year - 1) / 4 - (year - 1) / 100 + (year - 1) / 400

def startOfYear (year : ℕ) : ℤ :=
  Duration.seconds (86400 * ((daysBeforeYear year : ℤ) - daysBeforeYear 1970))

/-- The first moment that is out of range. -/
def overflow : ℤ := startOfYear 262144

example : startOfYear 1970 = 0 ∧ startOfYear 2000 = Duration.seconds 946684800 := by decide

/-- `DateTime + Duration`, for a duration that is not negative. -/
def add? (now d : ℤ) : Option ℤ := if now + d < overflow then some (now + d) else none

end DateTime
end Beachhead
