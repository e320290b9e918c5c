import DeskCalculator.Number.Shortest

/-! A double to a fixed number of significant digits, rounded once from its
exact value, ties to even. -/
namespace DeskCalculator.Number

/-- coefficient * 10^(exponent - places), where the coefficient of a nonzero
number has places + 1 digits. -/
structure Scientific where
  negative : Bool
  coefficient : Nat
  places : Nat
  exponent : Int
  deriving DecidableEq

def Scientific.decimal (s : Scientific) : Decimal :=
  ⟨s.negative, s.coefficient, s.exponent - s.places⟩

/-- The greatest power of ten up to the given one that is at most p; grid 0 if there is none. -/
def decade (p : Nat) : Nat → Nat
  | 0 => 0
  | n + 1 => if 10 ^ (n + 1) ≤ p then n + 1 else decade p n

/-- Rounding up to a power of ten lengthens the coefficient by a digit, which is then a zero. -/
def significant (places : Nat) (negative : Bool) (m : Magnitude) : Scientific :=
  if m.units = 0 then ⟨negative, 0, places, 0⟩
  else
    let n := decade (m.units * five) (topGrid m.units)
    let c := halfEven (m.units * five * 10 ^ places) (10 ^ n)
    if c < 10 ^ (places + 1) then ⟨negative, c, places, n - 1074⟩
    else ⟨negative, c / 10, places, n + 1 - 1074⟩

end DeskCalculator.Number
