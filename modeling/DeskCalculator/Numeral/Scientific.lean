import DeskCalculator.Number.Significant
import DeskCalculator.Numeral.Plain

/-! Scientific text: one digit, a point and the places if there are any, and the
exponent with its sign and no needless zero. -/
namespace DeskCalculator.Numeral
open Number

def mantissa (places : Nat) (ds : List Char) : List Char :=
  if places = 0 then ds else pointed places ds

def signedExponent (e : Int) : List Char :=
  (if e < 0 then '-' else '+') :: digits e.natAbs

def scientific (s : Scientific) : String :=
  .ofList (sign s.negative ++ mantissa s.places (digits s.coefficient) ++
    'e' :: signedExponent s.exponent)

end DeskCalculator.Numeral
