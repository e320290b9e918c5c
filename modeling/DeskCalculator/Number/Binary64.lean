/-! Doubles as exact numbers. A finite double is a sign and a whole number of
units of 2^-1074, with at most 53 significant bits. An operation is exact on
whole numbers and then rounds once, to the nearest double, ties to even. -/

-- powers of whole numbers are the basic ones, also where algebra brings others
attribute [instance (high), default_instance (high + 1)] instPowNat

namespace DeskCalculator.Number

/-- The nearest whole number to num / den; a half goes to the even neighbour. -/
def halfEven (num den : Nat) : Nat :=
  if 2 * (num % den) < den then num / den
  else if den < 2 * (num % den) then num / den + 1
  else num / den + num / den % 2

/-- Distance between neighbouring doubles around n units. Below 2^53 units,
which takes in the subnormal numbers, neighbours are one unit apart. -/
def spacing (n : Nat) : Nat := 2 ^ (n.log2 - 52)

/-- Units of the double nearest to num / den units, as if the exponent had no upper end. -/
def nearest (num den : Nat) : Nat :=
  halfEven num (den * spacing (num / den)) * spacing (num / den)

/-- Units in 2^1024, the first power of two that no double reaches. -/
def limit : Nat := 2 ^ 2098

def Holds (n : Nat) : Prop := n < limit ∧ spacing n ∣ n

instance (n : Nat) : Decidable (Holds n) := inferInstanceAs (Decidable (_ ∧ _))

theorem halfEven_le (num den : Nat) : halfEven num den ≤ num / den + 1 := by
  unfold halfEven
  split
  · omega
  · split <;> omega

theorem spacing_dvd_mul {a k : Nat} (ha : a ≤ 2 ^ 53) : spacing (a * 2 ^ k) ∣ a * 2 ^ k := by
  unfold spacing
  rcases Nat.eq_zero_or_pos a with rfl | pos
  · simp
  have nz : a * 2 ^ k ≠ 0 := Nat.mul_ne_zero (by omega) (by simp)
  rcases Nat.lt_or_ge a (2 ^ 53) with small | big
  · have lt : a * 2 ^ k < 2 ^ (53 + k) := by
      rw [Nat.pow_add]; exact Nat.mul_lt_mul_of_pos_right small (Nat.two_pow_pos k)
    have := (Nat.log2_lt nz).2 lt
    exact Nat.dvd_trans (Nat.pow_dvd_pow 2 (by omega)) (Nat.dvd_mul_left _ _)
  · obtain rfl : a = 2 ^ 53 := by omega
    rw [← Nat.pow_add, Nat.log2_two_pow]
    exact Nat.pow_dvd_pow 2 (by omega)

theorem div_spacing_lt (n : Nat) : n / spacing n < 2 ^ 53 := by
  unfold spacing
  rw [Nat.div_lt_iff_lt_mul (Nat.two_pow_pos _), ← Nat.pow_add]
  exact Nat.lt_of_lt_of_le Nat.lt_log2_self (Nat.pow_le_pow_right (by decide) (by omega))

theorem spacing_dvd_nearest (num den : Nat) : spacing (nearest num den) ∣ nearest num den := by
  apply spacing_dvd_mul
  have := halfEven_le num (den * spacing (num / den))
  rw [← Nat.div_div_eq_div_mul] at this
  have := div_spacing_lt (num / den)
  omega

structure Magnitude where
  units : Nat
  holds : Holds units
  deriving DecidableEq

def Magnitude.zero : Magnitude := ⟨0, by decide +kernel, Nat.dvd_zero _⟩

inductive Binary64 where
  | nan
  | infinity (negative : Bool)
  | finite (negative : Bool) (magnitude : Magnitude)
  deriving DecidableEq

namespace Binary64

/-- The double nearest to num / den units; infinity past the largest. -/
def round (negative : Bool) (num den : Nat) : Binary64 :=
  if h : nearest num den < limit then
    .finite negative ⟨nearest num den, h, spacing_dvd_nearest num den⟩
  else .infinity negative

def zero : Binary64 := .finite false .zero

/-- Units in the whole number 1. -/
def one : Nat := 2 ^ 1074

def ofInt (z : Int) : Binary64 := round (z < 0) (z.natAbs * one) 1

def ofRatio (num : Int) (den : Nat) : Binary64 := round (num < 0) (num.natAbs * one) den

def signed (negative : Bool) (m : Magnitude) : Int :=
  if negative then -(m.units : Int) else m.units

/-- A zero sum is negative only when both terms carry the sign. -/
def sum (zeroNegative : Bool) (units : Int) : Binary64 :=
  round (if units = 0 then zeroNegative else units < 0) units.natAbs 1

def neg : Binary64 → Binary64
  | .nan => .nan
  | .infinity s => .infinity !s
  | .finite s m => .finite (!s) m

def add : Binary64 → Binary64 → Binary64
  | .nan, _ | _, .nan => .nan
  | .infinity s, .infinity t => if s = t then .infinity s else .nan
  | .infinity s, .finite _ _ | .finite _ _, .infinity s => .infinity s
  | .finite s m, .finite t n => sum (s && t) (signed s m + signed t n)

def sub (x y : Binary64) : Binary64 := add x (neg y)

def mul : Binary64 → Binary64 → Binary64
  | .nan, _ | _, .nan => .nan
  | .infinity s, .infinity t => .infinity (s != t)
  | .infinity s, .finite t m | .finite t m, .infinity s =>
    if m.units = 0 then .nan else .infinity (s != t)
  | .finite s m, .finite t n => round (s != t) (m.units * n.units) one

/-- A zero divisor gives an infinity with both signs multiplied, or nan for zero over zero. -/
def div : Binary64 → Binary64 → Binary64
  | .nan, _ | _, .nan => .nan
  | .infinity _, .infinity _ => .nan
  | .infinity s, .finite t _ => .infinity (s != t)
  | .finite s _, .infinity t => .finite (s != t) .zero
  | .finite s m, .finite t n =>
    if n.units = 0 then if m.units = 0 then .nan else .infinity (s != t)
    else round (s != t) (m.units * one) n.units

instance : Neg Binary64 := ⟨neg⟩
instance : Add Binary64 := ⟨add⟩
instance : Sub Binary64 := ⟨sub⟩
instance : Mul Binary64 := ⟨mul⟩
instance : Div Binary64 := ⟨div⟩

def isFinite : Binary64 → Bool
  | .finite _ _ => true
  | _ => false

def isNan : Binary64 → Bool
  | .nan => true
  | _ => false

def isZero : Binary64 → Bool
  | .finite _ m => m.units == 0
  | _ => false

/-- Whether x < 0 holds; a negative zero is not below zero. -/
def belowZero : Binary64 → Bool
  | .nan => false
  | .infinity s => s
  | .finite s m => s && m.units != 0

/-- The greatest whole number that is not above a finite double. -/
def floor? : Binary64 → Option Int
  | .finite s m => some (signed s m / one)
  | _ => none

/-- The whole number next to a finite double on the side of zero. -/
def truncate? : Binary64 → Option Int
  | .finite s m => some ((signed s m).tdiv one)
  | _ => none

end Binary64
end DeskCalculator.Number
