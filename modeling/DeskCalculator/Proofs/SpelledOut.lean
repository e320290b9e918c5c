import DeskCalculator.Proofs.ReadBack
import Mathlib.Algebra.Order.Field.Rat

/-!
# The number that a text spells out

A text is read as the double next to the number that it spells out. That number itself is told
by its digits alone, its point and its exponent: `decimalOf?_positional` and
`decimalOf?_scientific` say what it is for the two forms in which a number is written.
-/

namespace DeskCalculator.Number

/-- The factor that stands for a sign. -/
def signFactor (negative : Bool) : ℚ := if negative then -1 else 1

/-- The number that a decimal stands for. -/
def Decimal.toRat (d : Decimal) : ℚ := signFactor d.negative * d.coefficient * 10 ^ d.exponent

namespace Binary64

/-- The number that a finite double is. -/
def toRat : Binary64 → ℚ
  | .finite s m => signFactor s * m.units / one
  | _ => 0

end Binary64
end DeskCalculator.Number

namespace DeskCalculator.Numeral
open Number

/-- The decimal that a text spells out, digit by digit, without rounding. -/
def decimalOf? (text : String) : Option Decimal :=
  match text.toList with
  | '-' :: cs => decimal? true cs
  | cs => decimal? false cs

theorem decimalOf?_sign {negative : Bool} {cs : List Char} {d : Decimal}
    (h : decimal? negative cs = some d) :
    decimalOf? (.ofList (sign negative ++ cs)) = some d := by
  rw [decimalOf?, String.toList_ofList]
  cases negative with
  | true => exact h
  | false =>
    split
    · rename_i rest same
      rw [sign, if_neg Bool.false_ne_true, List.nil_append] at same
      rw [same, decimal?_of_letter (by decide) (by decide)] at h
      cases h
    · exact h

/-- Scientific form spells out its decimal. -/
theorem decimalOf?_scientific (n : Scientific) : decimalOf? (scientific n) = some n.decimal := by
  have exponent := exponent?_signedExponent n.exponent
  have filled : digits n.coefficient ≠ [] := Nat.toDigits_ne_nil
  rw [scientific, List.append_assoc]
  apply decimalOf?_sign
  rw [decimal?_mantissa filled (digits_isDigit _) exponent, natOf_digits]
  rfl

/-- Plain form spells out the decimal it was written for, with the point moved. -/
theorem decimalOf?_positional (negative : Bool) (d : Decimal) :
    decimalOf? (.ofList (sign negative ++ positional d)) =
      some ⟨negative, d.coefficient * 10 ^ d.exponent.toNat, -((-d.exponent).toNat : Int)⟩ := by
  have none : exponent? [] = some 0 := rfl
  apply decimalOf?_sign
  unfold positional
  split
  · have filled : digits d.coefficient ++ List.replicate d.exponent.toNat '0' ≠ [] := by
      simp [digits_ne_nil]
    have spelled := decimal?_whole filled (digits_zeros_isDigit _ _) none negative
    rw [List.append_nil, natOf_append, natOf_digits, natOf_zeros, List.length_replicate,
      Nat.add_zero] at spelled
    have whole : (-d.exponent).toNat = 0 := by omega
    rw [spelled, whole]
    rfl
  · obtain ⟨whole, behind, parts, some, front, back, count, all⟩ :=
      pointed_parts (-d.exponent).toNat (digits_isDigit d.coefficient)
    have spelled := decimal?_pointed some front back none negative
    rw [List.append_nil, all, natOf_padded, natOf_digits, count] at spelled
    have part : d.exponent.toNat = 0 := by omega
    rw [parts, spelled, part, Nat.pow_zero, Nat.mul_one, Int.zero_sub]

/-- Moving the point does not change the number. -/
theorem toRat_positional (negative : Bool) (d : Decimal) :
    Decimal.toRat ⟨negative, d.coefficient * 10 ^ d.exponent.toNat,
      -((-d.exponent).toNat : Int)⟩ = signFactor negative * d.coefficient * 10 ^ d.exponent := by
  have parts : d.exponent = d.exponent.toNat + -((-d.exponent).toNat : Int) := by omega
  have power : (10 : ℚ) ^ d.exponent =
      10 ^ d.exponent.toNat * 10 ^ (-((-d.exponent).toNat : Int)) := by
    rw [← zpow_natCast, ← zpow_add₀ (by decide), ← parts]
  rw [Decimal.toRat, power, Nat.cast_mul, Nat.cast_pow, Nat.cast_ofNat]
  simp only [mul_assoc]

end DeskCalculator.Numeral
