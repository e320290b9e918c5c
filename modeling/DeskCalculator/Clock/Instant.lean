import DeskCalculator.Clock.Civil
import DeskCalculator.Number.Binary64

/-! Instants to the microsecond, and their conversion from and to milliseconds,
which passes through a double number of seconds. -/
namespace DeskCalculator.Clock
open Number

inductive Fault where
  | quotientTooLarge
  | secondsOutOfRange
  | yearTooLarge
  | yearOutOfRange (year : Int)
  | partOutOfRange (name : String) (first last : Nat)
  | dayOutOfRange
  | partTooWide
  | partAboveWord
  | partBelowWord
  | offsetTooWide
  | offsetTooManyDays (days : Int)
  | offsetNotWithinDay (minutes : Int)
  deriving DecidableEq

/-- Microseconds in a day. -/
def dayMicros : Int := 86400000000

/-- A span of time as days and what is over, which is never negative. -/
def shownSpan (micros : Int) : String :=
  let rest := micros % dayMicros
  let part (name : String) (n : Int) := if n = 0 then [] else [name ++ "=" ++ toString n]
  let parts := part "days" (micros / dayMicros) ++ part "seconds" (rest / 1000000) ++
    part "microseconds" (rest % 1000000)
  "datetime.timedelta(" ++ (if parts = [] then "0" else ", ".intercalate parts) ++ ")"

def Fault.message : Fault → String
  | quotientTooLarge => "integer division result too large for a float"
  | secondsOutOfRange => "timestamp out of range for platform time_t"
  | yearTooLarge => "[Errno 75] Value too large for defined data type"
  | yearOutOfRange year => "year " ++ toString year ++ " is out of range"
  | partOutOfRange name first last =>
    name ++ " must be in " ++ toString first ++ ".." ++ toString last
  | dayOutOfRange => "day is out of range for month"
  | partTooWide => "Python int too large to convert to C long"
  | partAboveWord => "signed integer is greater than maximum"
  | partBelowWord => "signed integer is less than minimum"
  | offsetTooWide => "Python int too large to convert to C int"
  | offsetTooManyDays days =>
    "days=" ++ toString days ++ "; must have magnitude <= 999999999"
  | offsetNotWithinDay minutes =>
    "offset must be a timedelta strictly between -timedelta(hours=24) and " ++
      "timedelta(hours=24), not " ++ shownSpan (minutes * 60000000) ++ "."

/-- Microseconds since the start of 1970, in Universal Time. -/
structure Instant where
  micros : Int
  deriving DecidableEq

def padded (width n : Nat) : String :=
  let ds := toString n
  .ofList (List.replicate (width - ds.length) '0') ++ ds

def Civil.text (c : Civil) : String :=
  padded 4 c.year.toNat ++ "-" ++ padded 2 c.month ++ "-" ++ padded 2 c.day

/-- A time of day with as many fraction digits as there are, none or six. -/
def timeText (hour minute second microsecond : Nat) : String :=
  padded 2 hour ++ ":" ++ padded 2 minute ++ ":" ++ padded 2 second ++
    (if microsecond = 0 then "" else "." ++ padded 6 microsecond)

namespace Instant

def ofMillis (ms : Int) : Instant := ⟨ms * 1000⟩

def date (t : Instant) : Civil := .ofDays (t.micros / dayMicros)

def timeOfDay (t : Instant) : Nat := (t.micros % dayMicros).toNat

def hour (t : Instant) : Nat := t.timeOfDay / 3600000000
def minute (t : Instant) : Nat := t.timeOfDay / 60000000 % 60
def second (t : Instant) : Nat := t.timeOfDay / 1000000 % 60
def microsecond (t : Instant) : Nat := t.timeOfDay % 1000000

/-- Seconds as the double nearest to them, times 1000 as a double, cut off at the point. -/
def epochMillis (t : Instant) : Int :=
  (Binary64.ofRatio t.micros 1000000 * .ofInt 1000).truncate?.getD 0

/-- A year is counted from 1900 in 32 bits, and has 32 bits itself. -/
def inYears (t : Instant) : Except Fault Instant :=
  let year := t.date.year
  if year - 1900 < -2 ^ 31 ∨ 2 ^ 31 ≤ year - 1900 then .error .yearTooLarge
  else if 1 ≤ year ∧ year ≤ 9999 then .ok t
  else .error (.yearOutOfRange (year.bmod (2 ^ 32)))

/-- The double number of seconds to the nearest microsecond, ties to even. -/
def ofSeconds (negative : Bool) (m : Magnitude) : Except Fault Instant :=
  let micros : Int := halfEven (m.units * 1000000) Binary64.one
  let seconds := Binary64.signed negative m
  if seconds < -2 ^ 63 * Binary64.one ∨ 2 ^ 63 * Binary64.one ≤ seconds then
    .error .secondsOutOfRange
  else inYears ⟨if negative then -micros else micros⟩

/-- The instant that a quotient stands for, which may be too large for a double. -/
def ofQuotient : Binary64 → Except Fault Instant
  | .finite negative m => ofSeconds negative m
  | _ => .error .quotientTooLarge

/-- The instant that a count of milliseconds stands for. -/
def ofEpochMillis (ms : Int) : Except Fault Instant := ofQuotient (Binary64.ofRatio ms 1000)

def text (t : Instant) : String :=
  t.date.text ++ "T" ++ timeText t.hour t.minute t.second t.microsecond ++ "+00:00"

end Instant

end DeskCalculator.Clock
