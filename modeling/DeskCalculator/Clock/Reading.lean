import DeskCalculator.Clock.Instant

/-! Readings of a clock: a date and a time of day, with an offset or without. -/
namespace DeskCalculator.Clock

/-- The offset is in microseconds from Universal Time; without one it is Universal Time. -/
structure Reading where
  date : Civil
  hour : Nat
  minute : Nat
  second : Nat
  microsecond : Nat
  offset : Option Int
  deriving DecidableEq

namespace Reading

def within (name : String) (first last : Nat) (n : Int) : Except Fault Nat :=
  if first ≤ n ∧ n ≤ last then .ok n.toNat else .error (.partOutOfRange name first last)

def dayWithin (year : Int) (month : Nat) (day : Int) : Except Fault Nat :=
  if 1 ≤ day ∧ day ≤ (monthLengths year).getD (month - 1) 0 then .ok day.toNat
  else .error .dayOutOfRange

/-- A part is an integer of 32 bits. -/
def inWord (n : Int) : Except Fault Unit :=
  if n < -2 ^ 63 ∨ 2 ^ 63 ≤ n then .error .partTooWide
  else if 2 ^ 31 ≤ n then .error .partAboveWord
  else if n < -2 ^ 31 then .error .partBelowWord
  else .ok ()

/-- An offset is less than a day. -/
def withinDay (minutes : Int) : Except Fault Unit :=
  let days := minutes / 1440
  if days < -2 ^ 31 ∨ 2 ^ 31 ≤ days then .error .offsetTooWide
  else if 999999999 < days.natAbs then .error (.offsetTooManyDays days)
  else if 1440 ≤ minutes.natAbs then .error (.offsetNotWithinDay minutes)
  else .ok ()

/-- The offset of a reading, in minutes, then its parts, each checked in its turn. -/
def ofParts (year month day hour minute second microsecond : Int) (offset : Option Int) :
    Except Fault Reading := do
  offset.forM withinDay
  [year, month, day, hour, minute, second, microsecond].forM inWord
  if year < 1 ∨ 9999 < year then throw (.yearOutOfRange year)
  let month ← within "month" 1 12 month
  let day ← dayWithin year month day
  let hour ← within "hour" 0 23 hour
  let minute ← within "minute" 0 59 minute
  let second ← within "second" 0 59 second
  let microsecond ← within "microsecond" 0 999999 microsecond
  return ⟨⟨year, month, day⟩, hour, minute, second, microsecond, offset.map (· * 60000000)⟩

/-- Microseconds since midnight. -/
def timeOfDay (r : Reading) : Nat :=
  ((r.hour * 60 + r.minute) * 60 + r.second) * 1000000 + r.microsecond

def instant (r : Reading) : Instant :=
  ⟨r.date.days * dayMicros + r.timeOfDay - r.offset.getD 0⟩

end Reading
end DeskCalculator.Clock
