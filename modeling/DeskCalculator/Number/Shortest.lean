import DeskCalculator.Number.Decimal

/-! The shortest decimal of a double: the point nearest to it on the coarsest
power-of-ten grid that has a point among the reals rounding to that double.

All of it is whole-number arithmetic in units of 10^-1074, where 10^n is the
grid of exponent n - 1074 and one unit of 2^-1074 is 5^1074. -/
namespace DeskCalculator.Number

/-- 2^-1074 in units of 10^-1074. -/
def five : Nat := 5 ^ 1074

/-- Four times the lower end of the reals that round to u units. The gap below
a power of two is half the gap above it, unless both are one unit. -/
def lowEnd (u : Nat) : Nat :=
  if u = 2 ^ u.log2 ∧ 1 < spacing u then 4 * u - spacing u else 4 * u - 2 * spacing u

def highEnd (u : Nat) : Nat := 4 * u + 2 * spacing u

/-- Whether p units of 10^-1074 round to u units of 2^-1074; the two ends,
which lie halfway to a neighbour, do so iff the significand is even. -/
def roundsTo (u p : Nat) : Bool :=
  if u / spacing u % 2 = 0 then lowEnd u * five ≤ 4 * p && 4 * p ≤ highEnd u * five
  else lowEnd u * five < 4 * p && 4 * p < highEnd u * five

/-- The multiple of 10^n nearest to u units among those that round to them; of
two at one distance the even one. The nearer neighbour may fail where the
farther does not, because the gap below a power of two is narrow. -/
def onGrid? (u n : Nat) : Option Nat :=
  let below := u * five / 10 ^ n
  let near := halfEven (u * five) (10 ^ n)
  let far := below + (below + 1) - near
  if roundsTo u (near * 10 ^ n) then some near
  else if roundsTo u (far * 10 ^ n) then some far
  else none

/-- From grid n downwards, the first with a point; grid 0 has every double. -/
def coarsest (u : Nat) : Nat → Nat × Nat
  | 0 => (u * five, 0)
  | n + 1 => match onGrid? u (n + 1) with
    | some c => (c, n + 1)
    | none => coarsest u n

/-- A grid with no point below v = u * 2^-1074 other than zero: with 2^k ≤ v < 2^(k+1)
and 2^13 < 10^4, 10^3 < 2^10, some power of ten above v. -/
def topGrid (u : Nat) : Nat :=
  if 1074 ≤ u.log2 then 1074 + 4 * ((u.log2 - 1074) / 13 + 1)
  else 1074 - 3 * ((1073 - u.log2) / 10)

def shortest (negative : Bool) (m : Magnitude) : Decimal :=
  if m.units = 0 then ⟨negative, 0, 0⟩
  else
    let (c, n) := coarsest m.units (topGrid m.units)
    ⟨negative, c, n - 1074⟩

end DeskCalculator.Number
