import DeskCalculator.Proofs.Steady

/-!
# How whole numbers are shown

A whole number below 10^15 fits on the display, so it is shown with its digits as long as it is
not unsteady. Its eleven first digits are all it has just when the others are zeros
(`significant_whole_iff`); otherwise it takes rounding to places to keep it (`shown_ofInt`).
-/

namespace DeskCalculator.Numeral
open Number

theorem toString_eq (n : Int) : toString n = .ofList (sign (n < 0) ++ digits n.natAbs) := by
  cases n with
  | ofNat k =>
    have sign : decide (Int.ofNat k < 0) = false := decide_eq_false (by simp)
    rw [sign]
    rfl
  | negSucc k =>
    have sign : decide (Int.negSucc k < 0) = true := decide_eq_true (Int.negSucc_lt_zero k)
    rw [sign, String.ofList_append]
    rfl

theorem pow_le_of_length_digits {q k : Nat} (pos : 0 < q) (h : k < (digits q).length) :
    10 ^ k ≤ q := by
  rcases Nat.eq_zero_or_pos k with rfl | some
  · exact pos
  · exact Nat.le_of_not_lt fun less => Nat.not_lt.mpr (length_digits_le some less) h

/-- Eleven digits for a whole number that has zeros only behind them. -/
theorem eleven_of_dvd {q : Nat} (pos : 0 < q) (zeros : 10 ^ ((digits q).length - 11) ∣ q) :
    ∃ c n, c * 10 ^ n = q * 10 ^ 1084 ∧ 10 ^ 10 ≤ c ∧ c < 10 ^ 11 := by
  have low := pow_le_of_length_digits pos (Nat.sub_one_lt_of_lt Nat.length_toDigits_pos)
  have high := lt_pow_length_digits q
  obtain ⟨t, ht⟩ : ∃ t, t = 1084 := ⟨_, rfl⟩
  rw [← ht]
  generalize width : (digits q).length = k at *
  have some : 0 < k := width ▸ Nat.length_toDigits_pos
  rcases Nat.lt_or_ge k 11 with few | many
  · have power (i : Nat) : 0 < 10 ^ i := Nat.pow_pos (by decide)
    refine ⟨q * 10 ^ (11 - k), t - (11 - k), ?_, ?_, ?_⟩
    · have exponents : 11 - k + (t - (11 - k)) = t := by omega
      rw [Nat.mul_assoc, ← Nat.pow_add, exponents]
    · have exponents : 10 = k - 1 + (11 - k) := by omega
      calc 10 ^ 10 = 10 ^ (k - 1) * 10 ^ (11 - k) := by rw [← Nat.pow_add, ← exponents]
        _ ≤ q * 10 ^ (11 - k) := Nat.mul_le_mul_right _ low
    · have exponents : k + (11 - k) = 11 := by omega
      calc q * 10 ^ (11 - k) < 10 ^ k * 10 ^ (11 - k) := Nat.mul_lt_mul_of_pos_right high (power _)
        _ = 10 ^ 11 := by rw [← Nat.pow_add, exponents]
  · obtain ⟨j, rfl⟩ := Nat.exists_eq_add_of_le many
    rw [Nat.add_sub_cancel_left] at zeros
    obtain ⟨c, rfl⟩ := zeros
    refine ⟨c, t + j, ?_, ?_, ?_⟩
    · rw [Nat.pow_add, Nat.mul_comm (10 ^ t), ← Nat.mul_assoc, Nat.mul_comm c]
    · have exponents : 11 + j - 1 = j + 10 := by omega
      rw [exponents, Nat.pow_add] at low
      exact Nat.le_of_mul_le_mul_left low (Nat.pow_pos (by decide))
    · rw [Nat.add_comm, Nat.pow_add] at high
      exact Nat.lt_of_mul_lt_mul_left high

end DeskCalculator.Numeral

namespace DeskCalculator.Display
open Number Numeral Binary64

theorem one_mul_steps : one * (10 ^ 10 * five) = 10 ^ 1084 := by
  obtain ⟨k, hk, tens⟩ : ∃ k, k = 1074 ∧ one * five = 10 ^ k := ⟨1074, rfl, one_mul_five⟩
  obtain ⟨t, ht⟩ : ∃ t, t = 1084 := ⟨_, rfl⟩
  have exponent : t = 10 + k := by omega
  rw [← ht, Nat.mul_left_comm, tens, exponent, Nat.pow_add]

theorem units_mul_steps {m : Magnitude} {q : Nat} (units : m.units = q * one) :
    m.units * five * 10 ^ 10 = q * 10 ^ 1084 := by
  rw [Nat.mul_assoc, Nat.mul_comm five, units, Nat.mul_assoc, one_mul_steps]

/-- Where eleven digits have zeros behind them, these are all the digits behind the eleven. -/
theorem zeros_of_eleven {c j : Nat} (low : 10 ^ 10 ≤ c) (high : c < 10 ^ 11) :
    10 ^ ((digits (c * 10 ^ j)).length - 11) ∣ c * 10 ^ j := by
  have width : (digits (c * 10 ^ j)).length = 10 + j + 1 := by
    apply length_digits
    · rw [Nat.pow_add]
      exact Nat.mul_le_mul_right _ low
    · rw [Nat.add_right_comm, Nat.pow_add]
      exact Nat.mul_lt_mul_of_pos_right high (Nat.pow_pos (by decide))
  have zeros : 10 + j + 1 - 11 = j := by omega
  rw [width, zeros]
  exact Nat.dvd_mul_left _ c

/-- Eleven digits that stand for a whole number and have no place behind the point are its
own, with zeros behind them. -/
theorem eq_of_whole {c q j : Nat} (small : q < 10 ^ 15) (low : 10 ^ 10 ≤ c)
    (below : 2 * (c * 10 ^ (1084 + j)) ≤ 2 * (q * 10 ^ 1084) + 10 ^ (1084 + j))
    (value : nearest (c * 10 ^ (1084 + j)) (10 ^ 10 * five) = q * one) : c * 10 ^ j = q := by
  have den : 0 < 10 ^ 10 * five := Nat.mul_pos (by decide) five_pos
  have unit := one_mul_steps
  obtain ⟨t, ht⟩ : ∃ t, t = 1084 := ⟨_, rfl⟩
  rw [← ht] at below value unit
  have power : 0 < 10 ^ t := Nat.pow_pos (by decide)
  have point : c * 10 ^ (t + j) = 10 ^ t * (c * 10 ^ j) := by
    rw [Nat.pow_add, Nat.mul_left_comm]
  have least := Nat.mul_le_mul_right (10 ^ j) low
  have close : 2 * (c * 10 ^ j) ≤ 2 * q + 10 ^ j := by
    rw [point, Nat.pow_add, Nat.mul_comm q] at below
    apply Nat.le_of_mul_le_mul_left _ power
    rw [Nat.mul_add, Nat.mul_left_comm, Nat.mul_left_comm (10 ^ t) 2 q]
    exact below
  rw [point, ← unit, Nat.mul_comm _ (c * 10 ^ j), ← Nat.mul_assoc, nearest_mul_cancel _ den,
    nearest_eq (holds_whole (by omega)).2] at value
  exact Nat.eq_of_mul_eq_mul_right Binary64.one_pos value

/-- A whole number that its eleven digits stand for has zeros only behind them. -/
theorem zeros_of_significant {s : Bool} {m : Magnitude} {q : Nat} (units : m.units = q * one)
    (pos : 0 < q) (small : q < 10 ^ 15)
    (value : (significant 10 s m).decimal.nearest = .finite s m) :
    10 ^ ((digits q).length - 11) ∣ q := by
  have normal := normal_one
  have least : one ≤ m.units := units ▸ Nat.le_mul_of_pos_left one pos
  obtain ⟨c, n, eleven, low, high, -, above, below⟩ := significant_normal s (m := m) (by omega)
  rw [eleven, Scientific.nearest_eq] at value
  rw [units_mul_steps units] at above below
  rcases Nat.lt_or_ge n 1084 with fine | whole
  · obtain ⟨t, ht⟩ : ∃ t, t = 1084 := ⟨_, rfl⟩
    rw [← ht] at fine above
    have power : 0 < 10 ^ n := Nat.pow_pos (by decide)
    have most := Nat.mul_le_mul_right (10 ^ n) (Nat.le_sub_one_of_lt high)
    have short : q < 10 ^ 10 := by
      apply Nat.lt_of_not_le
      intro long
      have wide := Nat.mul_le_mul_right (10 ^ t) long
      have step : 10 ^ n * 10 ≤ 10 ^ t := by
        rw [← Nat.pow_succ]
        exact Nat.pow_le_pow_right (by decide) fine
      omega
    have few : (digits q).length ≤ 10 := length_digits_le (by decide) short
    rw [Nat.sub_eq_zero_of_le (by omega), Nat.pow_zero]
    exact Nat.one_dvd q
  · obtain ⟨j, rfl⟩ := Nat.exists_eq_add_of_le whole
    have quotient := nearest_of_round value
    rw [units] at quotient
    rw [← eq_of_whole small low below quotient]
    exact zeros_of_eleven low high

/-- A whole number has eleven digits just when there are zeros only behind them. -/
theorem significant_whole_iff {s : Bool} {m : Magnitude} {q : Nat} (units : m.units = q * one)
    (pos : 0 < q) (small : q < 10 ^ 15) :
    (significant 10 s m).decimal.nearest = .finite s m ↔ 10 ^ ((digits q).length - 11) ∣ q := by
  refine ⟨zeros_of_significant units pos small, ?_⟩
  intro zeros
  obtain ⟨c, n, value, low, high⟩ := eleven_of_dvd pos zeros
  rw [← units_mul_steps units] at value
  have step : 0 < 10 ^ n := Nat.pow_pos (by decide)
  have den : 0 < 10 ^ 10 * five := Nat.mul_pos (by decide) five_pos
  rw [significant_eq (n := n) s low high (by omega) (by omega), Scientific.nearest_eq, value]
  apply round_of_nearest
  rw [Nat.mul_assoc, Nat.mul_comm five, nearest_mul_eq m.holds.2 den]

/-- **A whole number below 10^15 is shown with its digits** just when rounding to places keeps
it, or all its digits behind the first eleven are zeros. -/
theorem shown_ofInt {n : Int} (small : n.natAbs < 10 ^ 15) :
    Panel.standard.shown (some (ofInt n)) = toString n ↔
      rounded 12 (ofInt n) = .ok (ofInt n) ∨
        10 ^ ((digits n.natAbs).length - 11) ∣ n.natAbs := by
  rcases Nat.eq_zero_or_pos n.natAbs with none | pos
  · obtain rfl := Int.natAbs_eq_zero.mp none
    exact iff_of_true (by decide +kernel) (.inr (Nat.dvd_zero _))
  · have holds : Holds (n.natAbs * one) := holds_whole (by omega)
    obtain ⟨m, units, double⟩ : ∃ m : Magnitude, m.units = n.natAbs * one ∧
        ofInt n = .finite (n < 0) m := ⟨⟨_, holds⟩, rfl, by rw [ofInt, round_eq holds]⟩
    have text : plain (.finite (n < 0) m) = toString n := by
      have some : (n.natAbs != 0) = true := bne_iff_ne.mpr (Nat.ne_of_gt pos)
      rw [plain_whole _ (by omega) units, some, Bool.and_true, toString_eq]
    have fit : (plain (.finite (n < 0) m)).length ≤ 16 := by
      have few := length_digits_le (by decide) small
      have sign := Bool.toNat_le (decide (n < 0))
      rw [text, toString_eq, String.length_ofList, List.length_append, length_sign]
      omega
    have places : nearest (n.natAbs * 10 ^ 12 * one) (10 ^ 12) = m.units := by
      rw [Nat.mul_right_comm, ← units]
      exact nearest_mul_eq m.holds.2 (by decide)
    have some : 0 < m.units := by
      rw [units]
      exact Nat.mul_pos pos Binary64.one_pos
    have below : m.units < 10 ^ 15 * one := by
      rw [units]
      exact Nat.mul_lt_mul_of_pos_right small Binary64.one_pos
    have eleven := significant_whole_iff (s := n < 0) units pos small
    rw [double, ← text, shown_eq_plain_iff places some below fit, ← eleven, Unsteady,
      Classical.not_and_iff_not_or_not]
    exact or_congr Classical.not_not Classical.not_not

/-- Fourteen digits of which the last three are zeros. -/
theorem shown_ofInt_zeros : (-12345678901000 : Int).natAbs < 10 ^ 15 ∧
    Panel.standard.shown (some (ofInt (-12345678901000))) = toString (-12345678901000 : Int) :=
  ⟨by decide, (shown_ofInt (by decide)).mpr (.inr (by decide))⟩

/-- The number 805726562883 is shown as 805726562880. -/
theorem not_shown_ofInt :
    ¬ ∀ n : Int, n.natAbs < 10 ^ 15 → Panel.standard.shown (some (ofInt n)) = toString n := by
  intro claimed
  have text : Panel.standard.shown (some (ofInt 805726562883)) = "805726562880" := by
    decide +kernel
  have same := claimed 805726562883 (by decide)
  rw [text] at same
  exact absurd same (by decide)

end DeskCalculator.Display
