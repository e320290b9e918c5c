import DeskCalculator.Number.Decimal

/-! Elementary functions, computed by the machine on the bits of a double.
Nothing else in the library computes with machine numbers. -/
namespace DeskCalculator.Number.Binary64

/-- Sign, eleven bits of exponent, 52 bits of significand: with k doublings of
the spacing, a magnitude's bits are k * 2^52 plus its significand. -/
def bits : Binary64 → Nat
  | .nan => 0x7ff8 * 2 ^ 48
  | .infinity s => s.toNat * 2 ^ 63 + 0x7ff * 2 ^ 52
  | .finite s m => s.toNat * 2 ^ 63 + (m.units.log2 - 52) * 2 ^ 52 + m.units / spacing m.units

def ofBits (b : Nat) : Binary64 :=
  let negative := b / 2 ^ 63 % 2 = 1
  let exponent := b / 2 ^ 52 % 2 ^ 11
  let fraction := b % 2 ^ 52
  if exponent = 0x7ff then if fraction = 0 then .infinity negative else .nan
  else if exponent = 0 then round negative fraction 1
  else round negative ((2 ^ 52 + fraction) * 2 ^ (exponent - 1)) 1

def toMachine (x : Binary64) : Float := Float.ofBits (UInt64.ofNat x.bits)

def ofMachine (x : Float) : Binary64 := ofBits x.toBits.toNat

def viaMachine (f : Float → Float) (x : Binary64) : Binary64 := ofMachine (f x.toMachine)

def sin := viaMachine Float.sin
def cos := viaMachine Float.cos
def tan := viaMachine Float.tan
def ln := viaMachine Float.log
def log10 := viaMachine Float.log10
def sqrt := viaMachine Float.sqrt

def pow (x y : Binary64) : Binary64 := ofMachine (Float.pow x.toMachine y.toMachine)

def pi : Binary64 := Decimal.nearest ⟨false, 3141592653589793, -15⟩

def e : Binary64 := Decimal.nearest ⟨false, 2718281828459045, -15⟩

def ofDegrees (x : Binary64) : Binary64 := x * (pi / ofInt 180)

/-- Ten to a whole power: exact up to 10^22, the last that is a double, and otherwise
the machine's power, which is not always the double nearest to the power. -/
def tenPower (k : Int) : Binary64 :=
  if 0 ≤ k ∧ k ≤ 22 then ofInt (10 ^ k.toNat) else pow (ofInt 10) (ofInt k)

end DeskCalculator.Number.Binary64
