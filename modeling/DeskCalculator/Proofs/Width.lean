import DeskCalculator.Proofs.Moderate
import DeskCalculator.Proofs.Rescaling

/-!
# How wide plain numbers are

A whole number is written with its digits and no point (`plain_whole`). What has at most
sixteen characters has at most fifteen digits, unless it is a positive whole number of
sixteen (`short_of_fits`).
-/

namespace DeskCalculator.Numeral
open Number

/-- Trailing zeros multiply by powers of ten. -/
theorem digits_mul_pow {c : Nat} (some : 0 < c) (j : Nat) :
    digits (c * 10 ^ j) = digits c ++ List.replicate j '0' := by
  induction j with
  | zero => rw [Nat.pow_zero, Nat.mul_one, List.replicate_zero, List.append_nil]
  | succ j ih =>
    have next : c * 10 ^ (j + 1) = 10 * (c * 10 ^ j) + 0 := by
      rw [Nat.pow_succ, ← Nat.mul_assoc, Nat.mul_comm, Nat.add_zero]
    have zero : Nat.toDigits 10 0 = ['0'] := by decide
    rw [next, digits, ← Nat.toDigits_append_toDigits (by decide)
      (Nat.mul_pos some (Nat.pow_pos (by decide))) (by decide), zero]
    rw [digits] at ih
    rw [ih, List.append_assoc, List.replicate_succ']

/-- As many digits as it takes to write a number. -/
theorem length_digits {n k : Nat} (low : 10 ^ k ≤ n) (high : n < 10 ^ (k + 1)) :
    (digits n).length = k + 1 := by
  have most := (Nat.length_toDigits_le_iff (by decide) (Nat.succ_pos k)).mpr high
  have least := lt_pow_length_digits n
  have : k < (digits n).length :=
    (Nat.pow_lt_pow_iff_right (by decide : 1 < 10)).mp (Nat.lt_of_le_of_lt low least)
  unfold digits at *
  omega

/-- A decimal that is whole is written with its digits. -/
theorem positional_whole {c : Nat} (some : 0 < c) (negative : Bool) (j : Nat) :
    positional ⟨negative, c, (1074 + j : Nat) - 1074⟩ = digits (c * 10 ^ j) := by
  have whole : ((1074 + j : Nat) - 1074 : Int) = j := by omega
  rw [positional, whole, if_pos (Int.natCast_nonneg j), Int.toNat_natCast, digits_mul_pow some]

/-- What the plain form of a nonzero number is. -/
theorem plain_eq {m : Magnitude} (some : 0 < m.units) (s : Bool) {c n : Nat}
    (found : coarsest m.units (topGrid m.units) = (c, n)) :
    plain (.finite s m) = .ofList (sign s ++ positional ⟨s, c, n - 1074⟩) := by
  have other : m.units ≠ 0 := Nat.ne_of_gt some
  have signed : (s && m.units != 0) = s := by simp [other]
  rw [plain, shortest, if_neg other, found, signed]

/-- **Whole numbers below 2^53 are written with their digits.** -/
theorem plain_whole (s : Bool) {n : Nat} (h : n < 2 ^ 53) {m : Magnitude}
    (units : m.units = n * Binary64.one) :
    plain (.finite s m) = .ofList (sign (s && n != 0) ++ digits n) := by
  rcases Nat.eq_zero_or_pos n with rfl | pos
  · have none : m.units = 0 := by rw [units, Nat.zero_mul]
    rw [plain, shortest, if_pos none, none]
    simp [positional]
  · obtain ⟨c, j, found, value⟩ := coarsest_whole pos h
    have some : 0 < m.units := by
      rw [units]
      exact Nat.mul_pos pos Binary64.one_pos
    have signed : (s && n != 0) = s := by simp [Nat.ne_of_gt pos]
    rw [← units] at found
    rw [plain_eq some s found, positional_whole (coarsest_pos some found), value, signed]

theorem length_sign (s : Bool) : (sign s).length = s.toNat := by cases s <;> rfl

/-- **What fits is short.** Of sixteen characters at most fifteen are digits of the shortest
decimal, unless all are. -/
theorem short_of_fits {m : Magnitude} (some : 0 < m.units) {s : Bool} {c n : Nat}
    (found : coarsest m.units (topGrid m.units) = (c, n))
    (narrow : (plain (.finite s m)).length ≤ 16) :
    c < 10 ^ 15 ∨ s = false ∧ n = 1074 ∧ c < 10 ^ 16 := by
  have digit := lt_pow_length_digits c
  have short {k : Nat} (h : (digits c).length ≤ k) : c < 10 ^ k :=
    Nat.lt_of_lt_of_le digit (Nat.pow_le_pow_right (by decide) h)
  rw [plain_eq some s found, String.length_ofList, List.length_append, length_sign] at narrow
  unfold positional at narrow
  dsimp only at narrow
  split at narrow
  · rw [List.length_append, List.length_replicate] at narrow
    rcases Nat.lt_or_ge (digits c).length 16 with less | full
    · exact .inl (short (by omega))
    · refine .inr ⟨?_, by omega, short (by omega)⟩
      cases s with
      | false => rfl
      | true =>
        rw [Bool.toNat_true] at narrow
        omega
  · left
    apply short
    simp only [pointed, padded, List.length_append, List.length_take, List.length_cons,
      List.length_drop, List.length_replicate] at narrow
    omega

/-- Below 10^15 what fits has fifteen digits at most, and keeps away from 10^15 itself. -/
theorem short_of_small {m : Magnitude} (some : 0 < m.units)
    (small : m.units < 10 ^ 15 * Binary64.one) {s : Bool}
    (narrow : (plain (.finite s m)).length ≤ 16) :
    m.units ≤ (10 ^ 15 - 1) * Binary64.one ∧
    ∃ c n, coarsest m.units (topGrid m.units) = (c, n) ∧ c < 10 ^ 15 := by
  generalize found : coarsest m.units (topGrid m.units) = point
  obtain ⟨c, n⟩ := point
  have top : Holds (10 ^ 15 * Binary64.one) := Binary64.holds_whole (by decide)
  have top' : Holds ((10 ^ 15 - 1) * Binary64.one) := Binary64.holds_whole (by decide)
  have read := nearest_coarsest some m.holds.2 found
  have under : c * 10 ^ n < 10 ^ 15 * Binary64.one * five := by
    apply Nat.lt_of_not_le
    intro reached
    have := le_nearest five_pos top.2 reached
    omega
  have short : c < 10 ^ 15 := by
    rcases short_of_fits some found narrow with less | ⟨-, rfl, -⟩
    · exact less
    · rw [← one_mul_five, ← Nat.mul_assoc] at under
      exact Nat.lt_of_mul_lt_mul_right (Nat.lt_of_mul_lt_mul_right under)
  refine ⟨?_, c, n, rfl, short⟩
  rw [← read]
  apply nearest_le five_pos top'.2
  rcases Nat.lt_or_ge n 1074 with fine | whole
  · obtain ⟨t, ht, tens⟩ : ∃ t, t = 1073 ∧ Binary64.one * five = 10 ^ t * 10 ^ 1 :=
      ⟨1073, rfl, one_mul_five_eq (by decide : 1073 + 1 = 1074)⟩
    have step : 10 ^ n ≤ 10 ^ t := Nat.pow_le_pow_right (by decide) (by omega)
    have most := Nat.mul_le_mul (Nat.le_of_lt short) step
    rw [Nat.mul_assoc, tens]
    omega
  · obtain ⟨j, rfl⟩ := Nat.exists_eq_add_of_le whole
    rw [mul_pow_integral] at under ⊢
    have under := Nat.lt_of_mul_lt_mul_right (Nat.lt_of_mul_lt_mul_right under)
    exact Nat.mul_le_mul_right _ (Nat.mul_le_mul_right _ (Nat.le_sub_one_of_lt under))

/-- Whole numbers of a decade are written with as many digits. -/
theorem length_plain {m : Magnitude} (integral : Binary64.one ∣ m.units) (s : Bool) {k : Nat}
    (low : 2 ^ 53 * 10 ^ (1074 + k) ≤ (2 ^ 53 - 1) * (m.units * five))
    (high : (coarsest m.units (topGrid m.units)).1 * 10 ^ (coarsest m.units (topGrid m.units)).2 <
      10 ^ (1074 + (k + 1))) :
    (plain (.finite s m)).length = s.toNat + (k + 1) := by
  have power (i : Nat) : 0 < 10 ^ i := Nat.pow_pos (by decide)
  have some : 0 < m.units := by
    apply Nat.pos_of_ne_zero
    intro none
    have := power (1074 + k)
    rw [none, Nat.zero_mul] at low
    omega
  have normal : 2 ^ 52 ≤ m.units := by
    have unit := Binary64.normal_one
    have least := Nat.le_of_dvd some integral
    omega
  obtain ⟨c, j, found⟩ : ∃ c j, coarsest m.units (topGrid m.units) = (c, 1074 + j) := by
    obtain ⟨n, whole⟩ := integral
    rw [Nat.mul_comm] at whole
    rw [whole]
    apply coarsest_integral
    apply Nat.pos_of_ne_zero
    rintro rfl
    omega
  have near := (roundsTo_iff.mp (roundsTo_coarsest some (topGrid m.units))).relative normal
  rw [found] at near high
  dsimp only at near high
  obtain ⟨t, ht⟩ : ∃ t, t = 1074 := ⟨_, rfl⟩
  rw [← ht] at low near high
  have reached : 10 ^ (t + k) ≤ c * 10 ^ (t + j) := by omega
  rw [Nat.pow_add, Nat.pow_add _ t j, Nat.mul_left_comm] at reached
  rw [Nat.pow_add, Nat.pow_add _ t (k + 1), Nat.mul_left_comm] at high
  have reached := Nat.le_of_mul_le_mul_left reached (power t)
  have below := Nat.lt_of_mul_lt_mul_left high
  rw [plain_eq some s found, positional_whole (coarsest_pos some found), String.length_ofList,
    List.length_append, length_sign, length_digits reached below]

theorem length_digits_le {c k : Nat} (pos : 0 < k) (h : c < 10 ^ k) : (digits c).length ≤ k :=
  (Nat.length_toDigits_le_iff (by decide) pos).mpr h

/-- From 2^53 on whole numbers are even. -/
theorem even_of_large {m : Magnitude} {n : Nat} (units : m.units = n * Binary64.one)
    (large : 2 ^ 53 ≤ n) : n % 2 = 0 := by
  have step : 2 * Binary64.one ∣ spacing m.units := by
    rw [← Display.spacing_whole.1, units]
    exact spacing_dvd_spacing (Nat.mul_le_mul_right _ large)
  have whole := Nat.dvd_trans step m.holds.2
  rw [units] at whole
  exact Nat.mod_eq_zero_of_dvd (Nat.dvd_of_mul_dvd_mul_right Binary64.one_pos whole)

/-- **Whole numbers of sixteen digits fit.** -/
theorem fits_integral {m : Magnitude} {n : Nat} (units : m.units = n * Binary64.one)
    (short : n < 10 ^ 16) : (plain (.finite false m)).length ≤ 16 := by
  rcases Nat.lt_or_ge n (2 ^ 53) with small | large
  · rw [plain_whole false small units, String.length_ofList]
    exact length_digits_le (by decide) short
  · have unit := Binary64.one_pos
    have some : 0 < m.units := by
      rw [units]
      exact Nat.mul_pos (by omega) unit
    obtain ⟨c, j, found⟩ := coarsest_integral (n := n) (by omega)
    rw [← units] at found
    have high := coarsest_le_highEnd some (topGrid m.units)
    rw [found] at high
    have step : spacing m.units ≤ 2 * Binary64.one := by
      have below : m.units < 2 ^ 54 * Binary64.one := by
        rw [units]
        exact Nat.mul_lt_mul_of_pos_right (by omega) unit
      have := spacing_mul_pow_le below
      omega
    have most : 4 * (c * 10 ^ j) ≤ 4 * n + 4 := by
      rw [mul_pow_integral, ← Nat.mul_assoc] at high
      have high := Nat.le_of_mul_le_mul_right high five_pos
      generalize c * 10 ^ j = v at high ⊢
      apply Nat.le_of_mul_le_mul_right _ unit
      rw [highEnd] at high
      rw [Nat.add_mul, Nat.mul_assoc, Nat.mul_assoc]
      omega
    have even := even_of_large units large
    rw [plain_eq some false found, positional_whole (coarsest_pos some found),
      String.length_ofList]
    exact length_digits_le (by decide) (by omega)

/-- The shortest decimal of a number with twelve places has twelve at most. -/
theorem coarsest_places {z u : Nat} (some : 0 < u)
    (places : nearest (z * Binary64.one) (10 ^ 12) = u) :
    ∃ c j, coarsest u (topGrid u) = (c, 1062 + j) := by
  have rounds : roundsTo u (z * 10 ^ 1062) = true := by
    rw [roundsTo_iff]
    refine (within_of_nearest (by decide) some places).congr (by decide) five_pos ?_
    obtain ⟨k, hk, tens⟩ : ∃ k, k = 1062 ∧ Binary64.one * five = 10 ^ k * 10 ^ 12 :=
      ⟨1062, rfl, one_mul_five_eq (by decide)⟩
    rw [Nat.mul_assoc, ← hk, tens, Nat.mul_assoc]
  have reach : 1062 ≤ topGrid u := by
    have := (Nat.le_log2 (Nat.ne_of_gt some)).mpr (Display.normal_of_places some places)
    unfold topGrid
    split <;> omega
  have grid := le_coarsest_grid some rounds reach
  generalize coarsest u (topGrid u) = point at grid ⊢
  obtain ⟨c, g⟩ := point
  obtain ⟨j, rfl⟩ := Nat.exists_eq_add_of_le grid
  exact ⟨c, j, rfl⟩

/-- The digits of a number below one, and the places that they leave of twelve. -/
theorem places_of_small {m : Magnitude} {c j : Nat} (normal : 2 ^ 52 ≤ m.units)
    (found : coarsest m.units (topGrid m.units) = (c, 1062 + j))
    (small : m.units < Binary64.one) : j ≤ 12 ∧ (digits c).length ≤ 13 := by
  have some : 0 < m.units := by omega
  have digit := coarsest_pos some found
  have near := (roundsTo_iff.mp (roundsTo_coarsest some (topGrid m.units))).relative normal
  rw [found] at near
  have most : c * 10 ^ j ≤ 10 ^ 12 := by
    obtain ⟨k, hk, tens⟩ : ∃ k, k = 1062 ∧ Binary64.one * five = 10 ^ 12 * 10 ^ k :=
      ⟨1062, rfl, one_mul_five_eq (by decide)⟩
    have below := Nat.mul_lt_mul_of_pos_right small five_pos
    have step : 0 < 10 ^ k := Nat.pow_pos (by decide)
    have near := near.1
    dsimp only at near
    rw [← hk, Nat.pow_add, Nat.mul_left_comm c] at near
    rw [tens] at below
    apply Nat.le_of_lt_succ
    apply Nat.lt_of_mul_lt_mul_left (a := 10 ^ k)
    rw [Nat.mul_succ, Nat.mul_comm (10 ^ k) (10 ^ 12)]
    omega
  constructor
  · apply Nat.le_of_not_lt
    intro past
    have grid : 10 ^ 13 ≤ 10 ^ j := Nat.pow_le_pow_right (by decide) past
    have := Nat.mul_le_mul digit grid
    omega
  · apply length_digits_le (by decide)
    have := Nat.le_mul_of_pos_right c (Nat.pow_pos (n := j) (by decide : 0 < 10))
    omega

/-- **Numbers below one with twelve places fit.** -/
theorem fits_places {m : Magnitude} {z : Nat}
    (places : nearest (z * Binary64.one) (10 ^ 12) = m.units) (small : m.units < Binary64.one)
    (s : Bool) : (plain (.finite s m)).length ≤ 16 := by
  rcases Nat.eq_zero_or_pos m.units with none | some
  · rw [plain, shortest, if_pos none, none]
    cases s <;> decide
  obtain ⟨c, j, found⟩ := coarsest_places some places
  have normal : 2 ^ 52 ≤ m.units :=
    Nat.le_trans (Nat.pow_le_pow_right Nat.two_pos (by decide))
      (Display.normal_of_places some places)
  obtain ⟨whole, count⟩ := places_of_small normal found small
  have sign : s.toNat ≤ 1 := by cases s <;> decide
  rw [plain_eq some s found, String.length_ofList, List.length_append, length_sign]
  unfold positional
  dsimp only
  split
  · have last : ((1062 + j : Nat) - 1074 : Int).toNat = 0 := by omega
    rw [last, List.length_append, List.length_replicate]
    omega
  · simp only [pointed, padded, List.length_append, List.length_take, List.length_cons,
      List.length_drop, List.length_replicate]
    omega

end DeskCalculator.Numeral
