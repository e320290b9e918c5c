import DeskCalculator.Proofs.Grid
import DeskCalculator.Proofs.Scaling

/-!
# What rounding to twelve places keeps

Rounding to twelve places moves a large number by a few parts in 10^16 at most
(`rescaled_near`). A number that has twelve places already it keeps below 4096 (`rescaled_eq`),
and from 4504 to 8192 if the last of them is zero (`rescaled_even`); what it makes of any
number it keeps from 9008 on, though that number may have been another (`rescaled_idem`).
-/

namespace DeskCalculator.Display
open Number Binary64

/-- Units of the number that rounding to twelve places makes of u units. -/
def rescaled (s : Bool) (u : Nat) : Nat :=
  nearest (steps s (nearest (u * 10 ^ 12) 1) * one) (10 ^ 12)

/-- A step of twelve places is far above the smallest doubles. -/
theorem le_nearest_places {z : Nat} (pos : 0 < z) :
    2 ^ 1034 ≤ nearest (z * one) (10 ^ 12) := by
  obtain ⟨k, hk, unit⟩ : ∃ k, k = 1034 ∧ one = 2 ^ k * 2 ^ 40 := ⟨1034, rfl, one_eq (by decide)⟩
  have least : 2 ^ k * 10 ^ 12 ≤ one := by
    rw [unit]
    exact Nat.mul_le_mul_left _ (by decide)
  rw [← hk]
  exact le_nearest (by decide) (spacing_two_pow_dvd k)
    (Nat.le_trans least (Nat.le_mul_of_pos_left _ pos))

theorem pos_of_places {z u : Nat} (some : 0 < u)
    (places : nearest (z * one) (10 ^ 12) = u) : 0 < z := by
  apply Nat.pos_of_ne_zero
  rintro rfl
  rw [Nat.zero_mul, nearest_of_small (by decide)] at places
  omega

theorem normal_of_places {z u : Nat} (some : 0 < u)
    (places : nearest (z * one) (10 ^ 12) = u) : 2 ^ 1034 ≤ u :=
  places ▸ le_nearest_places (pos_of_places some places)

/-- A decimal of twelve places as a quotient of whole numbers. -/
theorem places_of_within {m : Magnitude} {c i : Nat} (pos : 0 < m.units)
    (within : Within m.units (c * 10 ^ (1062 + i)) five) :
    nearest (c * 10 ^ i * one) (10 ^ 12) = m.units := by
  apply nearest_of_within pos (by decide) m.holds.2
  refine within.congr five_pos (by decide) ?_
  obtain ⟨t, ht, tens⟩ : ∃ t, t = 1062 ∧ one * five = 10 ^ t * 10 ^ 12 :=
    ⟨1062, rfl, one_mul_five_eq (by decide)⟩
  rw [← ht, Nat.pow_add, Nat.mul_assoc _ one, tens, ← Nat.mul_assoc c, Nat.mul_right_comm c,
    Nat.mul_assoc]

/-- **Rounding to places moves a large number by its neighbours only.** -/
theorem rescaled_near (s : Bool) {u : Nat} (large : 2 ^ 12 * one ≤ u)
    (under : nearest (u * 10 ^ 12) 1 < limit) : Near (rescaled s u) u := by
  have normal := normal_one
  have up := nearest_relative Nat.one_pos (by omega : 2 ^ 52 * 1 ≤ u * 10 ^ 12)
  have near : steps s (nearest (u * 10 ^ 12) 1) * one ≤ nearest (u * 10 ^ 12) 1 + 2 * one ∧
      nearest (u * 10 ^ 12) 1 ≤ steps s (nearest (u * 10 ^ 12) 1) * one + 2 * one := by
    rcases Nat.lt_or_ge (nearest (u * 10 ^ 12) 1) (2 ^ 53 * one) with small | whole
    · exact steps_near s small
    · have same := steps_mul_of_le s (p := ⟨_, under, spacing_dvd_nearest _ _⟩) whole
      dsimp only at same
      omega
  unfold rescaled
  generalize nearest (u * 10 ^ 12) 1 = p at *
  generalize steps s p * one = z at *
  have down := nearest_relative (by decide : 0 < 10 ^ 12)
    (by omega : 2 ^ 52 * 10 ^ 12 ≤ z)
  unfold Near
  omega

/-- A number below a power of two has as few steps of twelve places. -/
theorem lt_of_places {z u k : Nat} (hk : k ≤ 53) (places : nearest (z * one) (10 ^ 12) = u)
    (small : u < 2 ^ k * one) : z * one < 2 ^ k * one * 10 ^ 12 ∧ z < 2 ^ k * 10 ^ 12 := by
  have few : z * one < 2 ^ k * one * 10 ^ 12 := by
    apply Nat.lt_of_not_le
    intro reached
    have holds : Holds (2 ^ k * one) := holds_whole (Nat.pow_le_pow_right Nat.two_pos hk)
    have := le_nearest (by decide) holds.2 reached
    omega
  refine ⟨few, ?_⟩
  apply Nat.lt_of_mul_lt_mul_right (a := one)
  rw [Nat.mul_right_comm]
  exact few

/-- **Below 4096 twelve places are kept.** -/
theorem rescaled_eq {s : Bool} {z u : Nat} (pos : 0 < z) (places : nearest (z * one) (10 ^ 12) = u)
    (small : u < 2 ^ 12 * one) : rescaled s u = u := by
  have unit := Binary64.one_pos
  obtain ⟨few, count⟩ := lt_of_places (by decide) places small
  have down := nearest_error (z * one) (by decide : 0 < 10 ^ 12)
  have fine := spacing_mul_pow_le (k := 12) ((Nat.div_lt_iff_lt_mul (by decide)).mpr few)
  have up := nearest_error (u * 10 ^ 12) Nat.one_pos
  have fine' := spacing_mul_pow_le (x := u * 10 ^ 12 / 1) (k := 52) (by omega)
  rw [places] at down
  have same : steps s (nearest (u * 10 ^ 12) 1) = z := by
    have holds := spacing_dvd_nearest (u * 10 ^ 12) 1
    generalize nearest (u * 10 ^ 12) 1 = p at *
    generalize spacing (z * one / 10 ^ 12) = g at *
    generalize spacing (u * 10 ^ 12 / 1) = g' at *
    cases s with
    | false => exact steps_false_eq pos (by omega) holds (by omega) (by omega)
    | true => exact steps_true_eq (by omega) holds (by omega) (by omega)
  rw [rescaled, same, places]

/-- A number that is scaled to 2^53 or past it has no half to lose. -/
theorem rescaled_of_large (s : Bool) {u : Nat} (large : 2 ^ 53 * one ≤ nearest (u * 10 ^ 12) 1)
    (under : nearest (u * 10 ^ 12) 1 < limit) :
    rescaled s u = nearest (nearest (u * 10 ^ 12) 1) (10 ^ 12) := by
  have same := steps_mul_of_le s (p := ⟨_, under, spacing_dvd_nearest _ _⟩) large
  dsimp only at same
  rw [rescaled, same]

/-- Whole numbers of up to sixteen digits do not become others. -/
theorem rescaled_integral (s : Bool) {u : Nat} (large : 2 ^ 53 * one ≤ u * 10 ^ 12)
    (small : u * 10 ^ 12 < 2 ^ 92 * one) (whole : one ∣ u) (whole' : one ∣ rescaled s u) :
    rescaled s u = u := by
  have unit := Binary64.one_pos
  obtain ⟨top, grid⟩ : Holds (2 ^ 92 * one) := holds_mul_one (by decide)
  have reached := le_nearest Nat.one_pos
    (holds_whole (Nat.le_refl (2 ^ 53))).2 (by omega : 2 ^ 53 * one * 1 ≤ u * 10 ^ 12)
  have most := nearest_le Nat.one_pos grid (by omega : u * 10 ^ 12 ≤ 2 ^ 92 * one * 1)
  have same := rescaled_of_large s reached (by omega)
  have up := nearest_error (u * 10 ^ 12) Nat.one_pos
  have down := nearest_error (nearest (u * 10 ^ 12) 1) (by decide : 0 < 10 ^ 12)
  rw [← same] at down
  have fine := spacing_mul_pow_le (x := u * 10 ^ 12 / 1) (k := 92) (by omega)
  have fine' := spacing_mul_pow_le (x := nearest (u * 10 ^ 12) 1 / 10 ^ 12) (k := 53)
    ((Nat.div_lt_iff_lt_mul (by decide)).mpr (by omega))
  have near : rescaled s u < u + one ∧ u < rescaled s u + one := by
    generalize nearest (u * 10 ^ 12) 1 = p at *
    generalize spacing (p / 10 ^ 12) = g at *
    generalize spacing (u * 10 ^ 12 / 1) = g' at *
    omega
  exact eq_of_dvd_of_near whole' whole near.1 near.2

theorem spacing_le_pow {x k : Nat} (h : x < 2 ^ (53 + k)) : spacing x ≤ 2 ^ k := by
  apply Nat.pow_le_pow_right Nat.two_pos
  rcases Nat.eq_zero_or_pos x with rfl | pos
  · simp
  · have := (Nat.log2_lt (Nat.ne_of_gt pos)).mpr h
    omega

theorem pow_dvd_of_le {x k : Nat} (holds : spacing x ∣ x) (h : 2 ^ (52 + k) ≤ x) : 2 ^ k ∣ x := by
  have step : spacing (2 ^ (52 + k)) = 2 ^ k := by
    rw [spacing, Nat.log2_two_pow, Nat.add_sub_cancel_left]
  exact Nat.dvd_trans (step ▸ spacing_dvd_spacing h) holds

/-- The powers of two on both sides of a number with 53 bits or more, and the step between
its neighbours. -/
theorem exists_spacing {r : Nat} (normal : 2 ^ 52 ≤ r) :
    ∃ e, 2 ^ (52 + e) ≤ r ∧ r < 2 ^ (53 + e) ∧ spacing r = 2 ^ e := by
  have some : r ≠ 0 := by omega
  obtain ⟨e, exponent⟩ := Nat.exists_eq_add_of_le ((Nat.le_log2 some).mpr normal)
  refine ⟨e, exponent ▸ Nat.log2_self_le some, ?_, ?_⟩
  · have above := Nat.lt_log2_self (n := r)
    rwa [exponent, Nat.add_right_comm] at above
  · rw [spacing, exponent, Nat.add_sub_cancel_left]

/-- A number comes back where the neighbours of its product are closer than its own are when
they are multiplied. -/
theorem nearest_mul_div_of_fine {r e : Nat} (holds : spacing r ∣ r) (low : 2 ^ (52 + e) ≤ r)
    (step : spacing r = 2 ^ e) (fine : r * 10 ^ 12 < 2 ^ (92 + e)) :
    nearest (nearest (r * 10 ^ 12) 1) (10 ^ 12) = r := by
  have unit := Nat.two_pow_pos e
  have wide : 2 ^ 52 * 2 ^ e ≤ r := Nat.pow_add .. ▸ low
  by_cases power : r = 2 ^ r.log2
  · have exact : spacing (r * 10 ^ 12) ∣ r * 10 ^ 12 := by
      rw [power, Nat.mul_comm]
      exact spacing_dvd_mul (by decide)
    rw [nearest_eq exact, nearest_mul_eq holds (by decide)]
  · have below : spacing (r - 1) = 2 ^ e := by
      rw [spacing, log2_pred (by omega) power, ← spacing, step]
    have up := nearest_error (r * 10 ^ 12) Nat.one_pos
    have close : spacing (r * 10 ^ 12 / 1) ≤ 2 ^ (39 + e) :=
      spacing_le_pow (by rwa [Nat.div_one, ← Nat.add_assoc])
    rw [Nat.pow_add] at close
    apply nearest_of_within (by omega) (by decide) holds
    apply within_of_lt
    · rw [lowEnd_eq (by omega), below, Nat.sub_mul]
      omega
    · rw [highEnd, step, Nat.add_mul]
      omega

/-- Where those neighbours are farther apart the product is the dividend that the number has
come from, or the power of two that lies between them. -/
theorem nearest_mul_div_of_coarse {p r e : Nat} (holds : spacing p ∣ p)
    (quotient : nearest p (10 ^ 12) = r) (high : r < 2 ^ (53 + e))
    (coarse : 2 ^ (92 + e) ≤ r * 10 ^ 12) :
    nearest (nearest (r * 10 ^ 12) 1) (10 ^ 12) = r := by
  have itself : nearest (r * 10 ^ 12) (10 ^ 12) = r :=
    nearest_mul_eq (quotient ▸ spacing_dvd_nearest _ _) (by decide)
  have scale (i : Nat) : 2 ^ (i + e) = 2 ^ i * 2 ^ e := Nat.pow_add ..
  have least : 2 ^ (92 + e) ≤ nearest (r * 10 ^ 12) 1 :=
    le_nearest Nat.one_pos (spacing_two_pow_dvd _) (by rwa [Nat.mul_one])
  have grid : 2 ^ (40 + e) ∣ nearest (r * 10 ^ 12) 1 :=
    pow_dvd_of_le (spacing_dvd_nearest _ _) (by rwa [← Nat.add_assoc])
  have up := nearest_error (r * 10 ^ 12) Nat.one_pos
  have close : spacing (r * 10 ^ 12 / 1) ≤ 2 ^ (40 + e) := by
    apply spacing_le_pow
    rw [Nat.div_one, ← Nat.add_assoc]
    rw [scale] at high ⊢
    omega
  have down := nearest_error p (by decide : 0 < 10 ^ 12)
  have fine : spacing (p / 10 ^ 12) ≤ 2 ^ e := by
    apply spacing_le_pow
    apply Nat.lt_of_not_le
    intro reached
    have := le_nearest (by decide) (spacing_two_pow_dvd _)
      ((Nat.le_div_iff_mul_le (by decide : 0 < 10 ^ 12)).mp reached)
    omega
  rw [quotient] at down
  have factor := scale 40
  generalize spacing (r * 10 ^ 12 / 1) = g at *
  generalize spacing (p / 10 ^ 12) = g' at *
  rcases Nat.lt_or_ge p (2 ^ (92 + e)) with below | above
  · have power : 2 ^ (40 + e) ∣ 2 ^ (92 + e) := Nat.pow_dvd_pow 2 (by omega)
    have between : nearest (r * 10 ^ 12) 1 = 2 ^ (92 + e) :=
      eq_of_dvd_of_near grid power (by omega) (by omega)
    rw [between]
    apply Nat.le_antisymm
    · exact Nat.le_trans (nearest_mono (by decide) coarse) (Nat.le_of_eq itself)
    · rw [← quotient]
      exact nearest_mono (by decide) (Nat.le_of_lt below)
  · have grid' : 2 ^ (40 + e) ∣ p := pow_dvd_of_le holds (by rwa [← Nat.add_assoc])
    rw [eq_of_dvd_of_near grid grid' (by omega) (by omega), quotient]

/-- **Dividing, multiplying back and dividing again** is like dividing once. -/
theorem nearest_div_mul {p r : Nat} (holds : spacing p ∣ p) (normal : 2 ^ 52 ≤ r)
    (quotient : nearest p (10 ^ 12) = r) :
    nearest (nearest (r * 10 ^ 12) 1) (10 ^ 12) = r := by
  obtain ⟨e, low, high, step⟩ := exists_spacing normal
  rcases Nat.lt_or_ge (r * 10 ^ 12) (2 ^ (92 + e)) with fine | coarse
  · exact nearest_mul_div_of_fine (quotient ▸ spacing_dvd_nearest _ _) low step fine
  · exact nearest_mul_div_of_coarse holds quotient high coarse

/-- **From 9008 on what is rounded stays.** -/
theorem rescaled_idem {s : Bool} {u r : Nat} (under : nearest (u * 10 ^ 12) 1 < limit)
    (rounded : rescaled s u = r) (large : 9008 * one ≤ r)
    (under' : nearest (r * 10 ^ 12) 1 < limit) (t : Bool) : rescaled t r = r := by
  have normal := normal_one
  have whole : 2 ^ 53 * one ≤ nearest (u * 10 ^ 12) 1 := by
    apply Nat.le_of_not_lt
    intro small
    have near := (steps_near s small).1
    rw [rescaled] at rounded
    have down := nearest_error (steps s (nearest (u * 10 ^ 12) 1) * one)
      (by decide : 0 < 10 ^ 12)
    have fine := spacing_mul_pow_le
      (x := steps s (nearest (u * 10 ^ 12) 1) * one / 10 ^ 12) (k := 14)
      ((Nat.div_lt_iff_lt_mul (by decide)).mpr (by omega))
    rw [rounded] at down
    generalize spacing (steps s (nearest (u * 10 ^ 12) 1) * one / 10 ^ 12) = g at *
    omega
  have whole' : 2 ^ 53 * one ≤ nearest (r * 10 ^ 12) 1 :=
    le_nearest Nat.one_pos (holds_whole (Nat.le_refl (2 ^ 53))).2 (by omega)
  rw [rescaled_of_large s whole under] at rounded
  rw [rescaled_of_large t whole' under']
  exact nearest_div_mul (spacing_dvd_nearest _ _) (by omega) rounded

theorem spacing_eq_one {x : Nat} (low : 2 ^ 52 * one ≤ x) (high : x < 2 ^ 53 * one) :
    spacing x = one := by
  obtain ⟨t, ht, unit⟩ : ∃ t, t = 1074 ∧ one = 2 ^ t := ⟨1074, rfl, rfl⟩
  rw [unit, ← Nat.pow_add] at low high
  have exponent : x.log2 = 52 + t := by
    rw [Nat.log2_eq_iff (by have := Nat.two_pow_pos (52 + t); omega), Nat.add_right_comm]
    exact ⟨low, high⟩
  rw [spacing, exponent, Nat.add_sub_cancel_left, unit]

/-- Between 2^52 and 2^53 the doubles on both sides are one away. -/
theorem spacing_around {z : Nat} (low : 2 ^ 52 < z) (high : z < 2 ^ 53) :
    spacing (z * one) = one ∧ spacing (z * one - 1) = one := by
  have unit := Binary64.one_pos
  have least := Nat.mul_le_mul_right one low
  have most := Nat.mul_lt_mul_of_pos_right high unit
  rw [Nat.succ_mul] at least
  exact ⟨spacing_eq_one (by omega) (by omega), spacing_eq_one (by omega) (by omega)⟩

/-- Where neighbours are one step apart an even number of steps stays, since a tie goes to it. -/
theorem steps_even {z : Nat} (even : z % 2 = 0) (low : 2 ^ 52 < z) (high : z < 2 ^ 53) (s : Bool) :
    steps s (z * one) = z := by
  have unit := Binary64.one_pos
  have twice := two_mul_halfOne
  have some := Nat.mul_pos (Nat.zero_lt_of_lt low) unit
  obtain ⟨step, below⟩ := spacing_around low high
  have tie {x : Nat} (near : x ≤ z * one + halfOne) (near' : z * one ≤ x + halfOne) :
      nearest x 1 = z * one := by
    apply nearest_of_within (by omega) Nat.one_pos (holds_whole (by omega)).2
    rw [Within, step, Nat.mul_div_cancel _ unit, if_pos even, lowEnd_eq (by omega), below, highEnd,
      step]
    omega
  cases s with
  | false =>
    rw [steps, if_neg Bool.false_ne_true, tie (by omega) (by omega), Nat.mul_div_cancel _ unit]
  | true =>
    rw [steps, if_pos rfl, tie (by omega) (by omega)]
    apply Nat.div_eq_of_lt_le
    · omega
    · rw [Nat.succ_mul]
      omega

/-- **From 4504 to 8192 eleven places are kept.** -/
theorem rescaled_even {z u : Nat} (even : z % 2 = 0) (places : nearest (z * one) (10 ^ 12) = u)
    (large : 4504 * one ≤ u) (small : u < 2 ^ 13 * one) (s : Bool) : rescaled s u = u := by
  have unit := Binary64.one_pos
  obtain ⟨few, count⟩ := lt_of_places (by decide) places small
  have high : z < 2 ^ 53 := by omega
  have down := nearest_error (z * one) (by decide : 0 < 10 ^ 12)
  have fine := spacing_mul_pow_le (k := 13) ((Nat.div_lt_iff_lt_mul (by decide)).mpr few)
  rw [places] at down
  generalize spacing (z * one / 10 ^ 12) = g at *
  have low : 2 ^ 52 < z := by
    apply Nat.lt_of_mul_lt_mul_right (a := one)
    omega
  have some := Nat.mul_pos (Nat.zero_lt_of_lt low) unit
  obtain ⟨step, below⟩ := spacing_around low high
  have product : nearest (u * 10 ^ 12) 1 = z * one := by
    apply nearest_of_within (by omega) Nat.one_pos (holds_whole (by omega)).2
    apply within_of_lt
    · rw [lowEnd_eq (by omega), below]
      omega
    · rw [highEnd, step]
      omega
  rw [rescaled, product, steps_even even low high, places]

/-- What is scaled is finite below 10^15. -/
theorem scaled_lt_limit {u : Nat} (small : u < 10 ^ 15 * one) :
    nearest (u * 10 ^ 12) 1 < limit := by
  have top : Holds (2 ^ 92 * one) := holds_mul_one (by decide)
  exact Nat.lt_of_le_of_lt (nearest_le Nat.one_pos top.2 (by omega)) top.1

theorem le_of_past {u : Nat} (past : limit ≤ nearest (u * 10 ^ 12) 1) : 10 ^ 15 * one ≤ u :=
  Nat.le_of_not_lt fun small => absurd (scaled_lt_limit small) (Nat.not_lt.mpr past)

/-- Rounding to twelve places, on the units of a number. -/
theorem rounded_cases (s : Bool) (m : Magnitude) :
    (limit ≤ nearest (m.units * 10 ^ 12) 1 ∧ rounded 12 (.finite s m) = .ok (.finite s m)) ∨
    nearest (m.units * 10 ^ 12) 1 < limit ∧ ∃ k : Magnitude, k.units = rescaled s m.units ∧
      rounded 12 (.finite s m) = .ok (.finite (s && k.units != 0) k) := by
  rcases Nat.lt_or_ge (nearest (m.units * 10 ^ 12) 1) limit with under | past
  · obtain ⟨k, rounds, units⟩ := rounded_finite (d := 12) s
      (p := ⟨_, under, spacing_dvd_nearest _ _⟩) rfl
    refine .inr ⟨under, k, units, ?_⟩
    have sign : (steps s (nearest (m.units * 10 ^ 12) 1) != 0) = (k.units != 0) := by
      rw [Bool.eq_iff_iff, bne_iff_ne, bne_iff_ne, ← Nat.pos_iff_ne_zero, ← Nat.pos_iff_ne_zero]
      constructor
      · intro taken
        rw [units]
        exact Nat.lt_of_lt_of_le (Nat.two_pow_pos 1034) (le_nearest_places taken)
      · exact fun some => pos_of_places some units.symm
    rw [← sign]
    exact rounds
  · exact .inl ⟨past, rounded_past (d := 12) s past⟩

theorem rounded_of_kept {s : Bool} {m : Magnitude} (some : m.units ≠ 0)
    (kept : rescaled s m.units = m.units) : rounded 12 (.finite s m) = .ok (.finite s m) := by
  rcases rounded_cases s m with ⟨-, same⟩ | ⟨-, k, units, rounds⟩
  · exact same
  · obtain rfl := Magnitude.eq_of_units (units.trans kept)
    rw [rounds, bne_iff_ne.mpr some, Bool.and_true]

/-- Of the numbers with twelve places only those from 4096 on can become others. -/
theorem large_of_changed {s : Bool} {m : Magnitude} {z : Nat} (pos : 0 < m.units)
    (places : nearest (z * one) (10 ^ 12) = m.units)
    (changed : rounded 12 (.finite s m) ≠ .ok (.finite s m)) : 2 ^ 12 * one ≤ m.units :=
  Nat.le_of_not_lt fun small => changed (rounded_of_kept (Nat.ne_of_gt pos)
    (rescaled_eq (pos_of_places pos places) places small))

/-- A large number becomes one of its neighbours if it becomes another number. -/
theorem rounded_moves {s : Bool} {m : Magnitude} (large : 2 ^ 12 * one ≤ m.units)
    (changed : rounded 12 (.finite s m) ≠ .ok (.finite s m)) :
    nearest (m.units * 10 ^ 12) 1 < limit ∧ ∃ k : Magnitude, k.units = rescaled s m.units ∧
      rounded 12 (.finite s m) = .ok (.finite s k) ∧ k.units ≠ m.units ∧
      Near k.units m.units := by
  have unit := Binary64.one_pos
  rcases rounded_cases s m with ⟨-, same⟩ | ⟨under, k, units, rounds⟩
  · exact absurd same changed
  · have close := rescaled_near s large under
    rw [← units] at close
    have some : k.units ≠ 0 := by
      have := close.2
      omega
    rw [bne_iff_ne.mpr some, Bool.and_true] at rounds
    refine ⟨under, k, units, rounds, fun same => changed ?_, close⟩
    rw [rounds, Magnitude.eq_of_units same]

theorem rounded_origin : rounded 12 (.finite false .zero) = .ok (.finite false .zero) := by
  have none : rescaled false 0 = 0 := by decide +kernel
  rcases rounded_cases false .zero with ⟨-, same⟩ | ⟨-, k, units, rounds⟩
  · exact same
  · obtain rfl : k = .zero := Magnitude.eq_of_units (units.trans none)
    rw [rounds, Bool.false_and]

/-- What rounding to twelve places leaves of a number. -/
structure Rounded (s : Bool) (m : Magnitude) (t : Bool) (k : Magnitude) : Prop where
  rounds : rounded 12 (.finite s m) = .ok (.finite t k)
  /-- A zero has no sign. -/
  unsigned : k.units = 0 → t = false
  /-- What is below 10^15 has twelve places. -/
  places : k.units < 10 ^ 15 * one → ∃ z, nearest (z * one) (10 ^ 12) = k.units
  /-- What is 9008 or more is not rounded again. -/
  kept : 9008 * one ≤ k.units → rounded 12 (.finite t k) = .ok (.finite t k)

theorem rounded_spec (s : Bool) (m : Magnitude) : ∃ t k, Rounded s m t k := by
  have unit := Binary64.one_pos
  rcases rounded_cases s m with ⟨past, same⟩ | ⟨under, k, units, rounds⟩
  · have large := le_of_past past
    exact ⟨s, m, same, by omega, by omega, fun _ => same⟩
  · refine ⟨_, k, rounds, fun none => by simp [none], fun _ => ⟨_, units.symm⟩, fun large => ?_⟩
    rcases rounded_cases (s && k.units != 0) k with ⟨-, same⟩ | ⟨under', -⟩
    · exact same
    · exact rounded_of_kept (by omega) (rescaled_idem under units.symm large under' _)

end DeskCalculator.Display
