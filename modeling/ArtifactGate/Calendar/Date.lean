/-!
Dates of the Gregorian calendar, carried on to the years before it was in use, and the number of days
from the first of January 1970 to one of them.
-/
namespace ArtifactGate.Calendar

def isLeapYear (year : Int) : Bool :=
  year % 4 == 0 && (year % 100 != 0 || year % 400 == 0)

def monthLengths (year : Int) : List Nat :=
  [31, if isLeapYear year then 29 else 28, 31, 30, 31, 30, 31, 31, 30, 31, 30, 31]

structure Date where
  year : Int
  month : Nat
  day : Nat
  deriving DecidableEq, Repr, Inhabited

namespace Date

def exists? (date : Date) : Bool :=
  1 ≤ date.month && 1 ≤ date.day &&
    date.day ≤ (monthLengths date.year).getD (date.month - 1) 0

/-- The days of all years before this one, counted from the year 1. -/
def daysBeforeYear (year : Int) : Int :=
  let before := year - 1
  before * 365 + before / 4 - before / 100 + before / 400

def daysSinceEpoch (date : Date) : Int :=
  daysBeforeYear date.year - daysBeforeYear 1970 +
    Int.ofNat (((monthLengths date.year).take (date.month - 1)).foldr (· + ·) (date.day - 1))

end Date

end ArtifactGate.Calendar
