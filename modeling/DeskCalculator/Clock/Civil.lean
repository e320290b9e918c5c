/-! Dates of the Gregorian calendar, for all years, and the day they fall on. -/
namespace DeskCalculator.Clock

def isLeap (year : Int) : Bool := year % 4 == 0 && (year % 100 != 0 || year % 400 == 0)

def monthLengths (year : Int) : List Nat :=
  [31, if isLeap year then 29 else 28, 31, 30, 31, 30, 31, 31, 30, 31, 30, 31]

/-- Days from the first day of year 1 to the first day of a year. -/
def daysBeforeYear (year : Int) : Int :=
  let y := year - 1
  365 * y + y / 4 - y / 100 + y / 400

def daysBeforeMonth (year : Int) (month : Nat) : Nat :=
  ((monthLengths year).take (month - 1)).foldr (· + ·) 0

/-- Day 0 is the first day of 1970. -/
def epochDay : Int := daysBeforeYear 1970

structure Civil where
  year : Int
  month : Nat
  day : Nat
  deriving DecidableEq

namespace Civil

def days (c : Civil) : Int :=
  daysBeforeYear c.year + daysBeforeMonth c.year c.month + c.day - 1 - epochDay

/-- Month and day, counting from the first of the month that the lengths start with. -/
def locate (month : Nat) (day : Nat) : List Nat → Nat × Nat
  | [] => (month, day + 1)
  | length :: later =>
    if day < length then (month, day + 1) else locate (month + 1) (day - length) later

/-- Whole cycles of 400, 100, 4 and 1 years; only the last century of 400 years
and the last year of four have a day more than the others. -/
def ofDays (days : Int) : Civil :=
  let n := days + epochDay
  let r := (n % 146097).toNat
  let centuries := min 3 (r / 36524)
  let r := r - centuries * 36524
  let fours := r / 1461
  let r := r % 1461
  let years := min 3 (r / 365)
  let year := n / 146097 * 400 + centuries * 100 + fours * 4 + years + 1
  let (month, day) := locate 1 (r - years * 365) (monthLengths year)
  ⟨year, month, day⟩

end Civil
end DeskCalculator.Clock
