import DeskCalculator.Proofs.Grid

/-!
# The digits of a mantissa

A number written to some places is rounded once, on the grid of its last digit
(`significant_spec`), and read again it is the double nearest to that decimal
(`Scientific.nearest_eq`), whatever spares the powers of ten on the way: `magnitude_eq`.
Whatever is as near to a decimal of eleven digits as doubles are to their neighbours has those
eleven digits: `significant_eq`.
-/

namespace DeskCalculator.Number

/-- A nonzero number to some places: the digits fill their places, and rounding moves the
number by half a step at most; by less below a power of ten, where the steps are smaller. -/
theorem significant_spec (places : Nat) (negative : Bool) {m : Magnitude} (some : m.units ≠ 0) :
    ∃ c n : Nat, significant places negative m = ⟨negative, c, places, n - 1074⟩ ∧
      10 ^ places ≤ c ∧ c < 10 ^ (places + 1) ∧
      2 * (m.units * five * 10 ^ places) ≤ 2 * (c * 10 ^ n) + 10 ^ n ∧
      2 * (c * 10 ^ n) ≤ 2 * (m.units * five * 10 ^ places) + 10 ^ n ∧
      20 * (10 ^ places * 10 ^ n) ≤ 20 * (m.units * five * 10 ^ places) + 10 ^ n := by
  have power (i : Nat) : 0 < 10 ^ i := Nat.pow_pos (by decide)
  have pos : 0 < m.units * five := Nat.mul_pos (Nat.pos_of_ne_zero some) five_pos
  have reached := decade_spec pos (topGrid m.units)
  have short := lt_pow_decade (Nat.lt_of_lt_of_le (lt_pow_topGrid m.units)
    (Nat.pow_le_pow_right (by decide) (Nat.le_succ _)))
  unfold significant
  rw [if_neg some]
  dsimp only
  generalize decade (m.units * five) (topGrid m.units) = n at reached short ⊢
  generalize m.units * five = p at reached short ⊢
  have low := Nat.mul_le_mul_right (10 ^ places) reached
  have high : p * 10 ^ places ≤ 10 ^ (places + 1) * 10 ^ n := by
    rw [Nat.pow_succ, Nat.mul_assoc, ← Nat.pow_succ', Nat.mul_comm (10 ^ places)]
    exact Nat.mul_le_mul_right _ (Nat.le_of_lt short)
  have digits : 10 ^ places ≤ halfEven (p * 10 ^ places) (10 ^ n) := by
    refine Nat.le_trans ?_ (div_le_halfEven _ _)
    rw [Nat.le_div_iff_mul_le (power n), Nat.mul_comm]
    exact low
  have count := halfEven_le_of_le_mul (power n) high
  obtain ⟨above, below⟩ := halfEven_error (p * 10 ^ places) (power n)
  generalize halfEven (p * 10 ^ places) (10 ^ n) = c at digits count above below ⊢
  rw [Nat.mul_comm (10 ^ n)] at low
  split
  · rename_i less
    refine ⟨c, n, rfl, digits, less, below, above, ?_⟩
    omega
  · rename_i full
    obtain rfl : c = 10 ^ (places + 1) := by omega
    have whole : 10 ^ (places + 1) / 10 = 10 ^ places := by
      rw [Nat.pow_succ, Nat.mul_div_cancel _ (by decide)]
    have same : 10 ^ (places + 1) * 10 ^ n = 10 ^ places * 10 ^ (n + 1) := by
      rw [Nat.pow_succ, Nat.mul_assoc, ← Nat.pow_succ']
    have step : 10 ^ (n + 1) = 10 * 10 ^ n := Nat.pow_succ'
    rw [same] at above below
    refine ⟨10 ^ places, n + 1, ?_, Nat.le_refl _, ?_, ?_, ?_, ?_⟩
    · rw [whole]
      rfl
    · exact Nat.pow_lt_pow_right (by decide) (Nat.lt_succ_self _)
    · omega
    · omega
    · omega

/-- A mantissa is read as the double nearest to its decimal. -/
theorem Scientific.nearest_eq (negative : Bool) (c places n : Nat) :
    (Scientific.mk negative c places (n - 1074)).decimal.nearest =
      .round negative (c * 10 ^ n) (10 ^ places * five) := by
  have exponent : (n - 1074 - places : Int) = n - (places + 1074 : Nat) := by omega
  rw [decimal, Decimal.nearest, exponent, Decimal.magnitude_eq, Nat.pow_add, ← one_mul_five,
    ← Binary64.round_mul_mul negative _ (10 ^ places * five) Binary64.one_pos, Nat.mul_assoc _ five,
    Nat.mul_comm five]

/-- **Eleven digits that are near enough** are those of the number. -/
theorem significant_eq (negative : Bool) {m : Magnitude} {c n : Nat} (low : 10 ^ 10 ≤ c)
    (high : c < 10 ^ 11) (near : 40 * (m.units * five * 10 ^ 10) ≤ 40 * (c * 10 ^ n) + 10 ^ n)
    (near' : 40 * (c * 10 ^ n) ≤ 40 * (m.units * five * 10 ^ 10) + 10 ^ n) :
    significant 10 negative m = ⟨negative, c, 10, n - 1074⟩ := by
  have step : 0 < 10 ^ n := Nat.pow_pos (by decide)
  have least := Nat.mul_le_mul_right (10 ^ n) low
  have most := Nat.mul_le_mul_right (10 ^ n) (Nat.le_sub_one_of_lt high)
  have some : m.units ≠ 0 := by
    intro none
    rw [none] at near'
    omega
  obtain ⟨d, k, same, digits, count, above, below, edge⟩ := significant_spec 10 negative some
  rw [same]
  have most' := Nat.mul_le_mul_right (10 ^ k) (Nat.le_sub_one_of_lt count)
  rcases Nat.lt_trichotomy n k with finer | rfl | coarser
  · have wide : 10 * 10 ^ n ≤ 10 ^ k := by
      rw [← Nat.pow_succ']
      exact Nat.pow_le_pow_right (by decide) finer
    omega
  · have : c = d := by
      generalize 10 ^ n = s at *
      rcases Nat.lt_trichotomy c d with less | here | more
      · have := Nat.mul_le_mul_right s less
        rw [Nat.succ_mul] at this
        omega
      · exact here
      · have := Nat.mul_le_mul_right s more
        rw [Nat.succ_mul] at this
        omega
    rw [this]
  · have wide : 10 * 10 ^ k ≤ 10 ^ n := by
      rw [← Nat.pow_succ']
      exact Nat.pow_le_pow_right (by decide) coarser
    omega

/-- The eleven digits of a normal number stand for a normal number. -/
theorem significant_normal (s : Bool) {m : Magnitude} (normal : 2 ^ 53 ≤ m.units) :
    ∃ c n : Nat, significant 10 s m = ⟨s, c, 10, n - 1074⟩ ∧ 10 ^ 10 ≤ c ∧ c < 10 ^ 11 ∧
      2 ^ 52 * (10 ^ 10 * five) ≤ c * 10 ^ n ∧
      2 * (m.units * five * 10 ^ 10) ≤ 2 * (c * 10 ^ n) + 10 ^ n ∧
      2 * (c * 10 ^ n) ≤ 2 * (m.units * five * 10 ^ 10) + 10 ^ n := by
  have some : m.units ≠ 0 := by omega
  obtain ⟨c, n, same, low, high, above, below, -⟩ := significant_spec 10 s some
  have least := Nat.mul_le_mul_right (10 ^ n) low
  have wide := Nat.mul_le_mul_right (five * 10 ^ 10) normal
  rw [← Nat.mul_assoc m.units, Nat.mul_comm five] at wide
  exact ⟨c, n, same, low, high, by omega, above, below⟩

/-- **Neighbours of the number that eleven digits stand for** have the same eleven digits. -/
theorem significant_near {s : Bool} {m : Magnitude} {c n v : Nat} (low : 10 ^ 10 ≤ c)
    (high : c < 10 ^ 11) (normal : 2 ^ 52 * (10 ^ 10 * five) ≤ c * 10 ^ n)
    (value : nearest (c * 10 ^ n) (10 ^ 10 * five) = v) (close : Near m.units v) :
    significant 10 s m = ⟨s, c, 10, n - 1074⟩ := by
  have den : 0 < 10 ^ 10 * five := Nat.mul_pos (by decide) five_pos
  have error := nearest_relative den normal
  have most := Nat.mul_lt_mul_of_pos_right high (Nat.pow_pos (n := n) (by decide : 0 < 10))
  have near := Nat.mul_le_mul_right (10 ^ 10 * five) close.1
  have near' := Nat.mul_le_mul_right (10 ^ 10 * five) close.2
  rw [value] at error
  apply significant_eq s low high
  · rw [Nat.mul_assoc m.units, Nat.mul_comm five]
    rw [Nat.mul_assoc, Nat.mul_assoc _ v] at near
    omega
  · rw [Nat.mul_assoc m.units, Nat.mul_comm five]
    rw [Nat.mul_assoc _ m.units, Nat.mul_assoc _ v] at near'
    omega

end DeskCalculator.Number
