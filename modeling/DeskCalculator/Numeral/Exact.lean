import DeskCalculator.Numeral.Scientific

/-! Exact text of a double, as messages show it: its shortest digits, which read
back to it, with at least one place or else an exponent. -/
namespace DeskCalculator.Numeral
open Number

/-- Powers of ten from 10^-4 on and below 10^16 are written without an exponent. -/
def writtenOut (leading : Int) : Bool := -4 ≤ leading && leading < 16

/-- An exponent has at least two digits. -/
def longExponent (e : Int) : List Char :=
  (if e < 0 then '-' else '+') :: padded 2 (digits e.natAbs)

def exactDecimal (d : Decimal) : List Char :=
  let ds := digits d.coefficient
  let leading := ds.length - 1 + d.exponent
  if writtenOut leading then
    if 0 ≤ d.exponent then positional d ++ ['.', '0'] else positional d
  else mantissa (ds.length - 1) ds ++ 'e' :: longExponent leading

def exact : Binary64 → String
  | .nan => "nan"
  | .infinity s => .ofList (sign s ++ "inf".toList)
  | .finite s m => .ofList (sign s ++ exactDecimal (shortest s m))

end DeskCalculator.Numeral
