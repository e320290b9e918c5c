import DeskCalculator.Proofs.SpelledOut
import DeskCalculator.Proofs.Steady
import Mathlib.Algebra.Order.Field.Rat
import Mathlib.Algebra.Order.Ring.Abs
import Mathlib.Tactic.FieldSimp
import Mathlib.Tactic.Linarith
import Mathlib.Tactic.Ring

/-!
# How accurate the display is

Rounding to twelve places moves a number by less than a place, or by its neighbours only
(`rescaled_close`); a text has all digits of what comes of that or eleven of them, which is one
part in 10^10 at most (`NearDigits`). Both errors are counted in whole units, of 2^-1074 and of
10^-1084, so the bounds are for all magnitudes at once; `format_accurate` says what they come
to together.
-/

namespace DeskCalculator.Number

/-- Rounding moves a number by one part in 2^53, or by half the smallest double. -/
theorem nearest_near (num : Nat) {den : Nat} (pos : 0 < den) :
    2 ^ 53 * (nearest num den * den) ≤ (2 ^ 53 + 1) * num + 2 ^ 52 * den ∧
    2 ^ 53 * num ≤ 2 ^ 53 * (nearest num den * den) + num + 2 ^ 52 * den := by
  rcases Nat.lt_or_ge num (2 ^ 52 * den) with small | normal
  · have few : num / den < 2 ^ 52 := (Nat.div_lt_iff_lt_mul pos).mpr small
    have step : spacing (num / den) = 1 := by
      rw [spacing, Nat.sub_eq_zero_of_le, Nat.pow_zero]
      rcases Nat.eq_zero_or_pos (num / den) with none | some
      · rw [none]
        decide
      · exact Nat.le_of_lt ((Nat.log2_lt (Nat.ne_of_gt some)).mpr few)
    obtain ⟨high, low⟩ := nearest_error num pos
    rw [step, Nat.mul_one] at high low
    omega
  · obtain ⟨high, low⟩ := nearest_relative pos normal
    omega

end DeskCalculator.Number

namespace DeskCalculator.Display
open Number Numeral Binary64

/-- The steps of a scaled number are half a step away, and half of what its neighbours are apart. -/
theorem steps_error (s : Bool) (p : Nat) :
    2 * (steps s p * one) ≤ 2 * p + one + spacing (p + halfOne) ∧
    2 * p ≤ 2 * (steps s p * one) + one + spacing (p + halfOne) := by
  have twice := two_mul_halfOne
  have unit := Binary64.one_pos
  cases s with
  | false =>
    have near := nearest_error (p + halfOne) Nat.one_pos
    have low := Nat.div_mul_le_self (nearest (p + halfOne) 1) one
    have high := Nat.lt_mul_div_succ (nearest (p + halfOne) 1) unit
    rw [Nat.mul_comm, Nat.succ_mul] at high
    rw [Nat.div_one] at near
    rw [steps, if_neg Bool.false_ne_true]
    omega
  | true =>
    rcases Nat.le_total p halfOne with small | large
    · have none : steps true p = 0 := by
        rw [steps, if_pos rfl, Nat.sub_eq_zero_of_le small, nearest_eq (Nat.dvd_zero _)]
        exact Nat.div_eq_of_lt (by omega)
      rw [none, Nat.zero_mul]
      omega
    have near := nearest_error (p - halfOne) Nat.one_pos
    have finer := Nat.le_of_dvd (spacing_pos _)
      (spacing_dvd_spacing (by omega : p - halfOne ≤ p + halfOne))
    have low := Nat.div_mul_le_self (nearest (p - halfOne) 1 + (one - 1)) one
    have high := Nat.lt_mul_div_succ (nearest (p - halfOne) 1 + (one - 1)) unit
    rw [Nat.mul_comm, Nat.succ_mul] at high
    rw [Nat.div_one] at near
    rw [steps, if_pos rfl]
    omega

/-- Rounding to twelve places moves a number by four fifths of a place, and its neighbours. -/
theorem rescaled_close (s : Bool) {u : Nat} (under : nearest (u * 10 ^ 12) 1 < limit) :
    10 ^ 15 * rescaled s u ≤ (10 ^ 15 + 1) * u + 800 * one ∧
    10 ^ 15 * u ≤ 10 ^ 15 * rescaled s u + u + 800 * one := by
  rcases Nat.lt_or_ge u (2 ^ 12 * one) with small | large
  · have normal := normal_one
    have twice := two_mul_halfOne
    have up := nearest_near (u * 10 ^ 12) Nat.one_pos
    have fine := spacing_mul_pow_le (x := nearest (u * 10 ^ 12) 1 + halfOne) (k := 52) (by omega)
    have close := steps_error s (nearest (u * 10 ^ 12) 1)
    have down := nearest_near (steps s (nearest (u * 10 ^ 12) 1) * one) (by decide : 0 < 10 ^ 12)
    unfold rescaled
    generalize spacing (nearest (u * 10 ^ 12) 1 + halfOne) = g at *
    generalize nearest (u * 10 ^ 12) 1 = p at *
    generalize steps s p * one = z at *
    generalize nearest z (10 ^ 12) = k at *
    omega
  · obtain ⟨high, low⟩ := rescaled_near s large under
    omega

/-! The text of a number -/

/-- A text spells out a whole number of units of 10^-1084, with a sign. -/
def Spells (text : String) (negative : Bool) (p : Nat) : Prop :=
  ∃ d, decimalOf? text = some d ∧ d.toRat * 10 ^ 1084 = signFactor negative * p

/-- Units of 10^-1084 that are six parts in 10^11 off at most. -/
def NearDigits (k : Magnitude) (p : Nat) : Prop :=
  10 ^ 11 * p ≤ (10 ^ 11 + 6) * (k.units * five * 10 ^ 10) ∧
  (10 ^ 11 - 6) * (k.units * five * 10 ^ 10) ≤ 10 ^ 11 * p

theorem zpow_sub_mul (n k : Nat) : (10 : ℚ) ^ ((n : Int) - k) * 10 ^ k = 10 ^ n := by
  rw [zpow_sub₀ (by decide), zpow_natCast, zpow_natCast]
  exact div_mul_cancel₀ _ (pow_ne_zero _ (by decide))

theorem spells_scientific (t : Bool) (c n : Nat) :
    Spells (scientific ⟨t, c, 10, n - 1074⟩) t (c * 10 ^ n) := by
  refine ⟨_, decimalOf?_scientific _, ?_⟩
  have exponent : ((n : Int) - 1074 - (10 : Nat)) = n - (1084 : Nat) := by omega
  rw [Scientific.decimal, Decimal.toRat]
  dsimp only
  rw [exponent, mul_assoc, zpow_sub_mul, Nat.cast_mul, Nat.cast_pow, Nat.cast_ofNat, mul_assoc]

theorem spells_plain (t : Bool) {k : Magnitude} (some : 0 < k.units) :
    ∃ p, Spells (plain (.finite t k)) t (p * 10 ^ 10) ∧ Within k.units p five := by
  generalize found : coarsest k.units (topGrid k.units) = point
  obtain ⟨c, n⟩ := point
  have short : shortest t k = ⟨t, c, n - 1074⟩ := by
    rw [shortest, if_neg (Nat.ne_of_gt some), found]
  have signed : (t && k.units != 0) = t := by
    simp [Nat.ne_of_gt some]
  refine ⟨c * 10 ^ n, ⟨_, decimalOf?_positional _ _, ?_⟩, within_coarsest some found⟩
  have digits : (10 : ℚ) ^ 1084 = 10 ^ 1074 * 10 ^ 10 := pow_add 10 1074 10
  have grid : (10 : ℚ) ^ ((n : Int) - 1074) * 10 ^ 1074 = 10 ^ n := zpow_sub_mul n 1074
  rw [toRat_positional, short, signed, digits, ← mul_assoc]
  dsimp only
  rw [mul_assoc _ _ (10 ^ 1074 : ℚ), grid]
  simp only [Nat.cast_mul, Nat.cast_pow, Nat.cast_ofNat, mul_assoc]

/-- The text of a mantissa: its decimal, or the shortest one of the double next to that. -/
theorem spells_spelled (t : Bool) {k : Magnitude} (normal : 2 ^ 53 ≤ k.units)
    (reach : k.units ≤ brink) :
    ∃ p, Spells (spelled (significant 10 t k)) t p ∧ NearDigits k p := by
  obtain ⟨c, n, digits, low, high, wide, below, above⟩ := significant_normal t normal
  have least := Nat.mul_le_mul_right (10 ^ n) low
  have finite := significant_isFinite t reach
  rw [digits] at finite ⊢
  rw [Scientific.nearest_eq] at finite
  unfold spelled
  split
  · rw [Scientific.nearest_eq]
    have error := nearest_relative (Nat.mul_pos (by decide) five_pos) wide
    have least' := le_nearest (Nat.mul_pos (by decide) five_pos) (spacing_two_pow_dvd 52) wide
    unfold Binary64.round at finite ⊢
    split at finite
    · rename_i under
      rw [dif_pos under]
      obtain ⟨p, spells, within⟩ := spells_plain t
        (k := ⟨_, under, spacing_dvd_nearest _ _⟩) (by dsimp only; omega)
      refine ⟨_, spells, ?_⟩
      have close := within.relative least'
      dsimp only at close
      generalize nearest (c * 10 ^ n) (10 ^ 10 * five) = v at error close
      rw [Nat.mul_left_comm v] at error
      unfold NearDigits
      omega
    · cases finite
  · refine ⟨_, spells_scientific t c n, ?_⟩
    unfold NearDigits
    omega

/-- A text of the display, in units of 10^-1084: 10^-12 off at most, and one part in 10^10. -/
def Accurate (m : Magnitude) (p : Nat) : Prop :=
  10 ^ 10 * p ≤ (10 ^ 10 + 1) * (m.units * five * 10 ^ 10) + 10 ^ 8 * (one * five) ∧
  10 ^ 10 * (m.units * five * 10 ^ 10) ≤
    10 ^ 10 * p + m.units * five * 10 ^ 10 + 10 ^ 8 * (one * five)

theorem spells_layout (t : Bool) {k : Magnitude} (normal : 2 ^ 53 ≤ k.units)
    (reach : k.units ≤ brink) :
    ∃ p, Spells (if (plain (.finite t k)).length ≤ 16 then plain (.finite t k)
      else spelled (significant 10 t k)) t p ∧ NearDigits k p := by
  split
  · obtain ⟨p, spells, within⟩ := spells_plain t (k := k) (by omega)
    have close := within.relative (by omega)
    refine ⟨_, spells, ?_⟩
    unfold NearDigits
    omega
  · exact spells_spelled t normal reach

theorem accurate_of_close {m k : Magnitude} {p : Nat}
    (close : 10 ^ 15 * k.units ≤ (10 ^ 15 + 1) * m.units + 800 * one ∧
      10 ^ 15 * m.units ≤ 10 ^ 15 * k.units + m.units + 800 * one)
    (digits : NearDigits k p) : Accurate m p := by
  have high := Nat.mul_le_mul_right five close.1
  have low := Nat.mul_le_mul_right five close.2
  simp only [Nat.add_mul, Nat.mul_assoc _ _ five] at high low
  unfold NearDigits at digits
  unfold Accurate
  omega

/-- What is shown for a number spells out one that is next to it. -/
theorem spells_shown (s : Bool) {m : Magnitude} (reach : m.units ≤ 10 ^ 308 * one) :
    ∃ t p, Spells (Panel.standard.shown (some (.finite s m))) t p ∧ (t = s ∨ p = 0) ∧
      Accurate m p := by
  have normal := normal_one
  rcases rounded_cases s m with ⟨past, same⟩ | ⟨under, k, units, rounds⟩
  · have large := le_of_past past
    rw [shown_of_rounded same]
    obtain ⟨p, spells, digits⟩ := spells_layout s (k := m) (by omega)
      (by unfold brink; omega)
    exact ⟨s, p, spells, .inl rfl, accurate_of_close (by omega) digits⟩
  · have close := rescaled_close s under
    rw [← units] at close
    rw [shown_of_rounded rounds]
    rcases Nat.eq_zero_or_pos k.units with none | some
    · obtain rfl : k = .zero := Magnitude.eq_of_units none
      rw [show (s && Magnitude.zero.units != 0) = false from Bool.and_false s, if_pos (by decide)]
      refine ⟨false, 0, ⟨⟨false, 0, 0⟩, by decide, by simp [Decimal.toRat]⟩, .inr rfl, ?_⟩
      apply accurate_of_close close
      unfold NearDigits
      simp [Magnitude.zero]
    · have large : 2 ^ 53 ≤ k.units :=
        Nat.le_trans (Nat.pow_le_pow_right Nat.two_pos (by decide))
          (normal_of_places some units.symm)
      have signed : (s && k.units != 0) = s := by
        simp [Nat.ne_of_gt some]
      obtain ⟨p, spells, digits⟩ := spells_layout s large (by unfold brink; omega)
      rw [signed]
      exact ⟨s, p, spells, .inl rfl, accurate_of_close close digits⟩

/-- Units of 10^-1084 in the whole number 1. -/
theorem tens_eq : (10 : ℚ) ^ 1084 = (one * five : Nat) * 10 ^ 10 := by
  obtain ⟨k, hk, tens⟩ : ∃ k, k = 1074 ∧ one * five = 10 ^ k := ⟨1074, rfl, one_mul_five⟩
  rw [tens, Nat.cast_pow, Nat.cast_ofNat, ← pow_add, hk]

/-- The value of a number in units of 10^-1084. -/
theorem toRat_mul (s : Bool) (m : Magnitude) :
    (finite s m).toRat * 10 ^ 1084 = signFactor s * (m.units * five * 10 ^ 10 : Nat) := by
  have unit : (one : ℚ) ≠ 0 := Nat.cast_ne_zero.mpr (Nat.ne_of_gt Binary64.one_pos)
  rw [toRat, tens_eq]
  simp only [Nat.cast_mul, Nat.cast_pow, Nat.cast_ofNat]
  generalize (one : ℚ) = o at *
  generalize (five : ℚ) = f
  field_simp

theorem abs_signFactor_mul (s : Bool) (a : ℚ) : |signFactor s * a| = |a| := by
  cases s <;> simp [signFactor]

theorem le_of_abs_toRat_le {s : Bool} {m : Magnitude} {k : Nat}
    (h : |(finite s m).toRat| ≤ 10 ^ k) : m.units ≤ 10 ^ k * one := by
  have unit : (0 : ℚ) < one := Nat.cast_pos.mpr Binary64.one_pos
  have size : (0 : ℚ) ≤ m.units / one := div_nonneg (Nat.cast_nonneg _) (Nat.cast_nonneg _)
  rw [toRat, mul_div_assoc, abs_signFactor_mul, abs_of_nonneg size, div_le_iff₀ unit] at h
  exact_mod_cast h

/-- Accuracy in units of 10^-1084 is accuracy. -/
theorem abs_sub_le_of_accurate {m : Magnitude} {p : Nat} (accurate : Accurate m p) :
    |(p : ℚ) - (m.units * five * 10 ^ 10 : Nat)| ≤
      10 ^ 1084 / 10 ^ 12 + (m.units * five * 10 ^ 10 : Nat) / 10 ^ 10 := by
  obtain ⟨high, low⟩ := accurate
  rw [tens_eq]
  generalize m.units * five * 10 ^ 10 = a at *
  generalize one * five = o at *
  have high : (10 ^ 10 * p : ℚ) ≤ (10 ^ 10 + 1) * a + 10 ^ 8 * o := by exact_mod_cast high
  have low : (10 ^ 10 * a : ℚ) ≤ 10 ^ 10 * p + a + 10 ^ 8 * o := by exact_mod_cast low
  rw [abs_le]
  constructor
  · linarith
  · linarith

/-- **The display is accurate.** Up to 10^308 the text of a number spells out one that is 10^-12
off at most, and one part in 10^10. -/
theorem format_accurate {x : Binary64} (finite : x.isFinite = true)
    (bounded : |x.toRat| ≤ 10 ^ 308) :
    ∃ text d, format Panel.standard.params (some x) = .ok text ∧ decimalOf? text = some d ∧
      |d.toRat - x.toRat| ≤ 1 / 10 ^ 12 + |x.toRat| / 10 ^ 10 := by
  cases x with
  | nan => cases finite
  | infinity s => cases finite
  | finite s m =>
    have reach := le_of_abs_toRat_le (k := 308) bounded
    obtain ⟨t, p, ⟨d, text, value⟩, sign, accurate⟩ := spells_shown s reach
    have exact := toRat_mul s m
    have error := abs_sub_le_of_accurate accurate
    have pos : (0 : ℚ) < 10 ^ 1084 := pow_pos (by decide) _
    generalize (10 : ℚ) ^ 1084 = unit at *
    generalize m.units * five * 10 ^ 10 = a at *
    have distance : |d.toRat - (Binary64.finite s m).toRat| * unit = |(p : ℚ) - a| := by
      have scaled : (d.toRat - (Binary64.finite s m).toRat) * unit =
          signFactor s * (p - a) := by
        rw [sub_mul, value, exact]
        rcases sign with rfl | rfl
        · ring
        · rw [Nat.cast_zero]
          ring
      rw [← abs_of_pos pos, ← abs_mul, scaled, abs_signFactor_mul]
    have size : |(Binary64.finite s m).toRat| * unit = a := by
      rw [← abs_of_pos pos, ← abs_mul, exact, abs_signFactor_mul, Nat.abs_cast]
    refine ⟨_, d, format_eq_shown _ _, text, le_of_mul_le_mul_right ?_ pos⟩
    calc |d.toRat - (Binary64.finite s m).toRat| * unit
        = |(p : ℚ) - a| := distance
      _ ≤ unit / 10 ^ 12 + a / 10 ^ 10 := error
      _ = (1 / 10 ^ 12 + |(Binary64.finite s m).toRat| / 10 ^ 10) * unit := by
        rw [← size]
        ring

/-- Two thirds. -/
def twoThirds : Binary64 := .ofRatio 2 3

theorem format_twoThirds :
    twoThirds.isFinite = true ∧ |twoThirds.toRat| ≤ 10 ^ 308 ∧
    format Panel.standard.params (some twoThirds) = .ok "0.666666666667" ∧
    |Decimal.toRat ⟨false, 666666666667, -12⟩ - twoThirds.toRat| ≤
      1 / 10 ^ 12 + |twoThirds.toRat| / 10 ^ 10 := by
  have finite : twoThirds.isFinite = true := by decide +kernel
  have bounded : |twoThirds.toRat| ≤ 10 ^ 308 := by
    decide +kernel
  have shown : format Panel.standard.params (some twoThirds) = .ok "0.666666666667" := by
    decide +kernel
  obtain ⟨text, d, formatted, spelled, near⟩ := format_accurate finite bounded
  obtain rfl : "0.666666666667" = text := Except.ok.inj (shown.symm.trans formatted)
  obtain rfl : ⟨false, 666666666667, -12⟩ = d := Option.some.inj spelled
  exact ⟨finite, bounded, shown, near⟩

end DeskCalculator.Display
