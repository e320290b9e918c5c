import DeskCalculator.Number.Binary64

/-! Decimals: a whole coefficient times a power of ten. -/
namespace DeskCalculator.Number

structure Decimal where
  negative : Bool
  coefficient : Nat
  exponent : Int
  deriving DecidableEq

namespace Decimal

/-- The double nearest to c * 10^e. The outer branches only spare the powers
of ten for values past the largest double or below half the smallest one. -/
def magnitude (negative : Bool) (c : Nat) (e : Int) : Binary64 :=
  if c = 0 then .finite negative .zero
  else if 309 ≤ e then .infinity negative
  else if c.log2 + 1 + 3 * e ≤ -1075 then .finite negative .zero
  else if 0 ≤ e then .round negative (c * 10 ^ e.toNat * Binary64.one) 1
  else .round negative (c * Binary64.one) (10 ^ (-e).toNat)

def nearest (d : Decimal) : Binary64 := magnitude d.negative d.coefficient d.exponent

end Decimal
end DeskCalculator.Number
