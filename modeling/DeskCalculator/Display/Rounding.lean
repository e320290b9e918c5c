import DeskCalculator.Number.Elementary

/-! Rounding to decimal places, half up, by scaling with a power of ten. -/
namespace DeskCalculator.Display
open Number

inductive Fault where
  | digitsTooLarge
  | scaleTooLarge
  | zeroScale
  | missingPrecision
  | precisionTooBig
  | precisionTooLong
  | noExponent
  deriving DecidableEq

def Fault.message : Fault → String
  | digitsTooLarge => "int too large to convert to float"
  | scaleTooLarge => "(34, 'Numerical result out of range')"
  | zeroScale => "float division by zero"
  | missingPrecision => "Format specifier missing precision"
  | precisionTooBig => "precision too big"
  | precisionTooLong => "Too many decimal digits in format string"
  | noExponent => "not enough values to unpack (expected 2, got 1)"

def scale (digits : Int) : Except Fault Binary64 :=
  if !(Binary64.ofInt digits).isFinite then .error .digitsTooLarge
  else if !(Binary64.tenPower digits).isFinite then .error .scaleTooLarge
  else .ok (.tenPower digits)

def half : Binary64 := .ofRatio 1 2

/-- A number too large to scale has no places to round. The rounded number is
whole before it is scaled back, so a zero loses its sign. -/
def rounded (digits : Int) (x : Binary64) : Except Fault Binary64 := do
  let s ← scale digits
  match (x * s + half).floor? with
  | none => .ok x
  | some n => if s.isZero then .error .zeroScale else .ok (.ofInt n / s)

end DeskCalculator.Display
