import DeskCalculator.Proofs.RoundTrip

/-!
# How far rounding moves a number

A rounded quotient is half a step away at most, in both directions (`nearest_error`), which
for normal doubles is one part in 2^53 (`nearest_relative`). What is as near as that to a
double rounds to it.
-/

namespace DeskCalculator.Number

theorem Magnitude.eq_of_units {m k : Magnitude} (h : m.units = k.units) : m = k := by
  cases m
  cases k
  cases h
  rfl

theorem Binary64.one_eq {t k : Nat} (h : t + k = 1074) : one = 2 ^ t * 2 ^ k := by
  rw [← Nat.pow_add, h]
  rfl

theorem Binary64.normal_one : 2 ^ 53 ≤ one := by
  obtain ⟨t, ht, unit⟩ : ∃ t, t = 1021 ∧ one = 2 ^ t * 2 ^ 53 := ⟨1021, rfl, one_eq (by decide)⟩
  rw [unit]
  exact Nat.le_mul_of_pos_left _ (Nat.two_pow_pos t)

theorem Binary64.holds_mul_one {e : Nat} (h : e < 1024) : Holds (2 ^ e * one) := by
  obtain ⟨t, ht, unit⟩ : ∃ t, t = 1074 ∧ one = 2 ^ t := ⟨1074, rfl, rfl⟩
  rw [unit, ← Nat.pow_add]
  exact holds_two_pow (by omega)

theorem spacing_pos (n : Nat) : 0 < spacing n := Nat.two_pow_pos _

theorem nearest_error (num : Nat) {den : Nat} (pos : 0 < den) :
    2 * (nearest num den * den) ≤ 2 * num + den * spacing (num / den) ∧
    2 * num ≤ 2 * (nearest num den * den) + den * spacing (num / den) := by
  have step := Nat.mul_pos pos (spacing_pos (num / den))
  have whole : nearest num den * den =
      halfEven num (den * spacing (num / den)) * (den * spacing (num / den)) := by
    rw [nearest, Nat.mul_assoc, Nat.mul_comm den]
  rw [whole]
  exact halfEven_error num step

theorem spacing_mul_le {q : Nat} (normal : 2 ^ 52 ≤ q) : spacing q * 2 ^ 52 ≤ q := by
  have some : q ≠ 0 := by omega
  have exponent := (Nat.le_log2 some).mpr normal
  rw [spacing, ← Nat.pow_add, Nat.sub_add_cancel exponent]
  exact Nat.log2_self_le some

theorem nearest_relative {num den : Nat} (pos : 0 < den) (normal : 2 ^ 52 * den ≤ num) :
    2 ^ 53 * (nearest num den * den) ≤ (2 ^ 53 + 1) * num ∧
    (2 ^ 53 - 1) * num ≤ 2 ^ 53 * (nearest num den * den) := by
  obtain ⟨high, low⟩ := nearest_error num pos
  have step : den * spacing (num / den) * 2 ^ 52 ≤ num := by
    have quotient := spacing_mul_le ((Nat.le_div_iff_mul_le pos).mpr normal)
    rw [Nat.mul_assoc, Nat.mul_comm]
    exact (Nat.le_div_iff_mul_le pos).mp quotient
  generalize den * spacing (num / den) = s at high low step
  generalize nearest num den * den = r at high low
  omega

/-- On one grid the next point is a step away. -/
theorem add_le_of_dvd {a b g : Nat} (left : g ∣ a) (right : g ∣ b) (less : a < b) : a + g ≤ b := by
  have step := Nat.le_of_dvd (Nat.sub_pos_of_lt less) (Nat.dvd_sub right left)
  omega

/-- Points of one grid that are less than a step apart are the same. -/
theorem eq_of_dvd_of_near {a b g : Nat} (left : g ∣ a) (right : g ∣ b) (above : a < b + g)
    (below : b < a + g) : a = b := by
  rcases Nat.lt_trichotomy a b with less | equal | more
  · have := add_le_of_dvd left right less
    omega
  · exact equal
  · have := add_le_of_dvd right left more
    omega

/-- What is strictly between the ends rounds to a double. -/
theorem within_of_lt {u num den : Nat} (low : lowEnd u * den < 4 * num)
    (high : 4 * num < highEnd u * den) : Within u num den := by
  unfold Within
  split
  · exact ⟨Nat.le_of_lt low, Nat.le_of_lt high⟩
  · exact ⟨low, high⟩

/-- A double below which the spacing changes is a power of two, with an even significand. -/
theorem even_of_spacing_pred {u : Nat} (some : 0 < u) (other : spacing (u - 1) ≠ spacing u) :
    u / spacing u % 2 = 0 := by
  obtain ⟨below, reached⟩ := lt_two_pow_log2 (Nat.sub_le u 1) other
  have power : u = 2 ^ u.log2 := by omega
  have high : 52 < u.log2 := by
    apply Nat.lt_of_not_le
    intro low
    have unit : spacing u = 1 := by rw [spacing, Nat.sub_eq_zero_of_le low, Nat.pow_zero]
    have part := spacing_dvd_spacing (Nat.sub_le u 1)
    rw [unit] at part other
    exact other (Nat.dvd_one.mp part)
  have digits : u / spacing u = 2 ^ 52 := by
    apply Nat.div_eq_of_eq_mul_left (spacing_pos u)
    rw [spacing, ← Nat.pow_add, Nat.add_sub_cancel' (Nat.le_of_lt high)]
    exact power
  rw [digits]

/-- What is rounded down to a double has its spacing, since a power of two between them would
be nearer. -/
theorem spacing_of_nearest_above {u num den : Nat} (pos : 0 < den) (h : nearest num den = u)
    (above : u * den ≤ num) : spacing u = spacing (num / den) := by
  apply Classical.byContradiction
  intro other
  obtain ⟨below, power⟩ := lt_two_pow_log2 ((Nat.le_div_iff_mul_le pos).mpr above) other
  have := le_nearest pos (spacing_two_pow_dvd _) ((Nat.le_div_iff_mul_le pos).mp power)
  omega

/-- What is rounded up to a double has the spacing below it. -/
theorem spacing_of_nearest_below {u num den : Nat} (pos : 0 < den) (some : 0 < u)
    (h : nearest num den = u) (below : num < u * den) :
    spacing (num / den) = spacing (u - 1) := by
  have less : num / den ≤ u - 1 :=
    Nat.le_sub_one_of_lt ((Nat.div_lt_iff_lt_mul pos).mpr below)
  apply Classical.byContradiction
  intro other
  obtain ⟨under, power⟩ := lt_two_pow_log2 less other
  have := nearest_le pos (spacing_two_pow_dvd _)
    (Nat.le_of_lt ((Nat.div_lt_iff_lt_mul pos).mp under))
  omega

theorem within_of_nearest_above {u num den : Nat} (pos : 0 < den) (some : 0 < u)
    (h : nearest num den = u) (above : u * den ≤ num) : Within u num den := by
  have same := spacing_of_nearest_above pos h above
  have step := Nat.mul_pos pos (spacing_pos u)
  have grid : halfEven num (den * spacing u) * spacing u = u := by
    rw [nearest, ← same] at h
    exact h
  generalize digits : halfEven num (den * spacing u) = k at grid
  have whole : u * den = k * (den * spacing u) := by
    rw [Nat.mul_comm den, ← Nat.mul_assoc, grid]
  have low : lowEnd u * den < u * den * 4 := by
    rw [Nat.mul_right_comm]
    apply Nat.mul_lt_mul_of_pos_right _ pos
    rw [lowEnd_eq some]
    have := spacing_pos (u - 1)
    omega
  have high : highEnd u * den = 4 * (k * (den * spacing u)) + 2 * (den * spacing u) := by
    rw [← whole, highEnd, Nat.add_mul, Nat.mul_assoc, Nat.mul_assoc, Nat.mul_comm den]
  have near := (halfEven_error num step).2
  have count : u / spacing u = k := Nat.div_eq_of_eq_mul_left (spacing_pos u) grid.symm
  rw [digits] at near
  unfold Within
  rw [count, high]
  split
  · omega
  · rename_i odd
    refine ⟨by omega, Nat.lt_of_not_le fun tie => ?_⟩
    have : k + 1 ≤ halfEven num (den * spacing u) :=
      le_halfEven_of_even step (by omega) (by rw [Nat.add_mul k, Nat.one_mul]; omega)
    omega

theorem within_of_nearest_below {u num den : Nat} (pos : 0 < den) (some : 0 < u)
    (h : nearest num den = u) (below : num < u * den) : Within u num den := by
  have same := spacing_of_nearest_below pos some h below
  have step := Nat.mul_pos pos (spacing_pos (u - 1))
  have grid : halfEven num (den * spacing (u - 1)) * spacing (u - 1) = u := by
    rw [nearest, same] at h
    exact h
  have holds : spacing u ∣ u := h ▸ spacing_dvd_nearest _ _
  have ends := lowEnd_mul some holds den
  generalize digits : halfEven num (den * spacing (u - 1)) = k at grid
  have whole : u * den = k * (den * spacing (u - 1)) := by
    rw [Nat.mul_comm den, ← Nat.mul_assoc, grid]
  have high : u * den * 4 < highEnd u * den := by
    rw [Nat.mul_right_comm]
    apply Nat.mul_lt_mul_of_pos_right _ pos
    have := spacing_pos u
    rw [highEnd]
    omega
  have near := (halfEven_error num step).1
  rw [digits] at near
  unfold Within
  split
  · omega
  · rename_i odd
    have gap : spacing (u - 1) = spacing u := by
      apply Classical.byContradiction
      intro other
      exact odd (even_of_spacing_pred some other)
    have count : u / spacing u = k := by
      apply Nat.div_eq_of_eq_mul_left (spacing_pos u)
      rw [← gap, grid]
    refine ⟨Nat.lt_of_not_le fun tie => ?_, by omega⟩
    rw [count] at odd
    obtain ⟨j, rfl⟩ : ∃ j, k = j + 1 := ⟨k - 1, by omega⟩
    rw [Nat.succ_mul] at whole
    have : halfEven num (den * spacing (u - 1)) ≤ j :=
      halfEven_le_of_even step (by omega)
        (by rw [Nat.add_mul (2 * j), Nat.mul_assoc, Nat.one_mul]; omega)
    omega

/-- **What rounds to a double lies between its ends.** -/
theorem within_of_nearest {u num den : Nat} (pos : 0 < den) (some : 0 < u)
    (h : nearest num den = u) : Within u num den := by
  rcases Nat.lt_or_ge num (u * den) with below | above
  · exact within_of_nearest_below pos some h below
  · exact within_of_nearest_above pos some h above

end DeskCalculator.Number
