import DeskCalculator.Number.Bounds
import DeskCalculator.Number.Significant

/-!
# Nearest points

Rounding to whole numbers moves a quotient by half a step at most, and rounding
to doubles passes no double from above either: it keeps the order (`nearest_mono`),
and what reaches the limit of doubles overflows (`round_of_limit_le`). A power of ten
between a number and ten times it is its decade, and the grid of the shortest decimal
has a point that rounds back.
-/

namespace DeskCalculator.Number

theorem div_le_halfEven (num den : Nat) : num / den ≤ halfEven num den := by
  unfold halfEven
  split
  · exact Nat.le_refl _
  · split <;> omega

/-- A rounded quotient is half a step off at most. -/
theorem halfEven_error (num : Nat) {den : Nat} (pos : 0 < den) :
    2 * (halfEven num den * den) ≤ 2 * num + den ∧
    2 * num ≤ 2 * (halfEven num den * den) + den := by
  have split := Nat.div_add_mod num den
  have small := Nat.mod_lt num pos
  rw [Nat.mul_comm] at split
  unfold halfEven
  generalize num / den = q at split
  generalize num % den = r at split small
  split
  · omega
  · split
    · rw [Nat.add_mul, Nat.one_mul]
      omega
    · rw [Nat.add_mul]
      rcases Nat.mod_two_eq_zero_or_one q with even | odd
      · rw [even]
        omega
      · rw [odd]
        omega

/-- A tie under an odd number goes down to the even one. -/
theorem halfEven_le_of_even {num den k : Nat} (pos : 0 < den) (even : k % 2 = 0)
    (h : 2 * num ≤ (2 * k + 1) * den) : halfEven num den ≤ k := by
  have split := Nat.div_add_mod num den
  have below : num / den ≤ k := by
    apply Nat.le_of_lt_succ
    rw [Nat.div_lt_iff_lt_mul pos]
    have : (2 * k + 1) * den = 2 * (k * den) + den := by
      rw [Nat.add_mul, Nat.mul_assoc, Nat.one_mul]
    rw [Nat.succ_mul]
    omega
  by_cases here : num / den = k
  · have rest : 2 * (num % den) ≤ den := by
      have : (2 * k + 1) * den = 2 * (den * k) + den := by
        rw [Nat.add_mul, Nat.mul_assoc, Nat.one_mul, Nat.mul_comm k]
      rw [here] at split
      omega
    unfold halfEven
    rw [here]
    split
    · exact Nat.le_refl _
    · rw [if_neg (by omega), even]
      exact Nat.le_refl _
  · exact Nat.le_trans (halfEven_le num den) (by omega)

/-- Past the middle the next number is nearer. -/
theorem lt_halfEven {num den k : Nat} (pos : 0 < den) (h : (2 * k + 1) * den < 2 * num) :
    k < halfEven num den := by
  have split := Nat.div_add_mod num den
  have twice : (2 * k + 1) * den = 2 * (den * k) + den := by
    rw [Nat.add_mul, Nat.mul_assoc, Nat.one_mul, Nat.mul_comm k]
  have above : k ≤ num / den := by
    rw [Nat.le_div_iff_mul_le pos, Nat.mul_comm]
    omega
  by_cases here : num / den = k
  · have rest : den < 2 * (num % den) := by
      rw [here] at split
      omega
    unfold halfEven
    rw [if_neg (by omega), if_pos rest]
    omega
  · exact Nat.lt_of_lt_of_le (by omega) (div_le_halfEven num den)

theorem halfEven_mono {a b den : Nat} (h : a ≤ b) :
    halfEven a den ≤ halfEven b den := by
  have quotients : a / den ≤ b / den := Nat.div_le_div_right h
  by_cases same : a / den = b / den
  · have rests : a % den ≤ b % den := by
      have := Nat.div_add_mod a den
      have := Nat.div_add_mod b den
      rw [same] at *
      omega
    have above := halfEven_le a den
    unfold halfEven at *
    rw [same] at *
    by_cases low : 2 * (b % den) < den
    · rewrite [if_pos low, if_pos (by omega)]
      exact Nat.le_refl _
    · rw [if_neg low]
      by_cases high : den < 2 * (b % den)
      · rw [if_pos high]
        exact above
      · rw [if_neg high]
        split
        · exact Nat.le_add_right _ _
        · rewrite [if_neg (by omega)]
          exact Nat.le_refl _
  · calc halfEven a den ≤ a / den + 1 := halfEven_le a den
      _ ≤ b / den := by omega
      _ ≤ halfEven b den := div_le_halfEven b den

/-- Between numbers of different spacing lies a power of two. -/
theorem lt_two_pow_log2 {m q : Nat} (h : m ≤ q) (other : spacing m ≠ spacing q) :
    m < 2 ^ q.log2 ∧ 2 ^ q.log2 ≤ q := by
  have some : q ≠ 0 := by
    rintro rfl
    exact other (by rw [Nat.le_zero.mp h])
  refine ⟨?_, Nat.log2_self_le some⟩
  apply Nat.not_le.mp
  intro ge
  have nonzero : m ≠ 0 := by
    have := Nat.two_pow_pos q.log2
    omega
  have up := (Nat.le_log2 nonzero).mpr ge
  have down := (Nat.le_log2 some).mpr (Nat.le_trans (Nat.log2_self_le nonzero) h)
  exact other (by rw [spacing, spacing, Nat.le_antisymm down up])

/-- What is at least a double rounds to at least it. -/
theorem le_nearest {num den m : Nat} (pos : 0 < den) (holds : spacing m ∣ m)
    (h : m * den ≤ num) : m ≤ nearest num den := by
  have below : m ≤ num / den := (Nat.le_div_iff_mul_le pos).mpr h
  generalize hq : num / den = q at below
  have step : 0 < spacing q := Nat.two_pow_pos _
  have floor : q / spacing q * spacing q ≤ nearest num den := by
    rw [nearest, hq]
    apply Nat.mul_le_mul_right
    rw [← hq, Nat.div_div_eq_div_mul]
    exact div_le_halfEven _ _
  refine Nat.le_trans ?_ floor
  by_cases same : spacing m = spacing q
  · obtain ⟨k, hk⟩ := holds
    rw [same, Nat.mul_comm] at hk
    rw [hk]
    apply Nat.mul_le_mul_right
    rw [Nat.le_div_iff_mul_le step, ← hk]
    exact below
  · -- the power of two between is on the grid of q
    obtain ⟨lower, upper⟩ := lt_two_pow_log2 below same
    have grid : spacing q ∣ 2 ^ q.log2 := Nat.pow_dvd_pow 2 (by omega)
    have reached := Nat.div_le_div_right (c := spacing q) upper
    calc m ≤ 2 ^ q.log2 := Nat.le_of_lt lower
      _ = 2 ^ q.log2 / spacing q * spacing q := (Nat.div_mul_cancel grid).symm
      _ ≤ q / spacing q * spacing q := Nat.mul_le_mul_right _ reached

theorem spacing_two_pow_dvd (k : Nat) : spacing (2 ^ k) ∣ 2 ^ k := by
  rw [spacing, Nat.log2_two_pow]
  exact Nat.pow_dvd_pow 2 (Nat.sub_le k 52)

/-- Powers of two below the limit are doubles. -/
theorem holds_two_pow {e : Nat} (h : e < 2098) : Holds (2 ^ e) := by
  obtain ⟨k, hk, top⟩ : ∃ k, k = 2098 ∧ limit = 2 ^ k := ⟨2098, rfl, rfl⟩
  refine ⟨?_, spacing_two_pow_dvd e⟩
  rw [top]
  exact Nat.pow_lt_pow_right (by decide) (by omega)

/-- Rounding to doubles keeps the order. -/
theorem nearest_mono {a b den : Nat} (pos : 0 < den) (h : a ≤ b) :
    nearest a den ≤ nearest b den := by
  have quotients : a / den ≤ b / den := Nat.div_le_div_right h
  by_cases same : spacing (a / den) = spacing (b / den)
  · rw [nearest, nearest, same]
    apply Nat.mul_le_mul_right
    exact halfEven_mono h
  · obtain ⟨lower, upper⟩ := lt_two_pow_log2 quotients same
    have holds := spacing_two_pow_dvd (b / den).log2
    calc nearest a den ≤ 2 ^ (b / den).log2 :=
          nearest_le pos holds (Nat.le_of_lt ((Nat.div_lt_iff_lt_mul pos).mp lower))
      _ ≤ nearest b den := le_nearest pos holds ((Nat.le_div_iff_mul_le pos).mp upper)

theorem spacing_dvd_limit : spacing limit ∣ limit := by
  unfold limit
  exact spacing_two_pow_dvd 2098

/-- What reaches the limit of doubles overflows. -/
theorem Binary64.round_of_limit_le (negative : Bool) {num den : Nat} (pos : 0 < den)
    (h : limit * den ≤ num) : round negative num den = .infinity negative := by
  have := le_nearest pos spacing_dvd_limit h
  rw [round, dif_neg (by omega)]

theorem halfEven_mul_mul (num den : Nat) {k : Nat} (pos : 0 < k) :
    halfEven (num * k) (den * k) = halfEven num den := by
  have rest : 2 * (num % den * k) = 2 * (num % den) * k := (Nat.mul_assoc ..).symm
  unfold halfEven
  rw [Nat.mul_mod_mul_right, Nat.mul_div_mul_right _ _ pos, rest]
  simp only [Nat.mul_lt_mul_right pos]

/-- Rounding depends on the quotient alone. -/
theorem nearest_mul_mul (num den : Nat) {k : Nat} (pos : 0 < k) :
    nearest (num * k) (den * k) = nearest num den := by
  rw [nearest, Nat.mul_div_mul_right _ _ pos, Nat.mul_right_comm, halfEven_mul_mul _ _ pos, nearest]

theorem nearest_mul_cancel (n : Nat) {k : Nat} (pos : 0 < k) :
    nearest (n * k) k = nearest n 1 := by
  have scaled := nearest_mul_mul n 1 pos
  rwa [Nat.one_mul] at scaled

/-- A quotient that is a double is exact. -/
theorem nearest_mul_eq {n k : Nat} (holds : spacing n ∣ n) (pos : 0 < k) :
    nearest (n * k) k = n := (nearest_mul_cancel n pos).trans (nearest_eq holds)

theorem Binary64.round_of_nearest {m : Magnitude} (negative : Bool) {num den : Nat}
    (h : nearest num den = m.units) : round negative num den = .finite negative m := by
  have below : nearest num den < limit := h ▸ m.holds.1
  rw [round, dif_pos below]
  congr

theorem Binary64.nearest_of_round {s t : Bool} {m : Magnitude} {num den : Nat}
    (h : round s num den = .finite t m) : nearest num den = m.units := by
  unfold round at h
  split at h
  · cases h
    rfl
  · cases h

theorem Binary64.round_zero (negative : Bool) (den : Nat) : round negative 0 den = .finite negative .zero :=
  round_of_nearest negative (by simp [nearest, halfEven, Magnitude.zero])

theorem nearest_of_small {num den : Nat} (h : 2 * num < den) : nearest num den = 0 := by
  have none : num / den = 0 := Nat.div_eq_of_lt (by omega)
  have rest : num % den = num := Nat.mod_eq_of_lt (by omega)
  have unit : spacing 0 = 1 := by decide
  rw [nearest, none, unit, Nat.mul_one, Nat.mul_one, halfEven, rest, none, if_pos h]

theorem Binary64.round_mul_mul (negative : Bool) (num den : Nat) {k : Nat} (pos : 0 < k) :
    round negative (num * k) (den * k) = round negative num den := by
  simp only [round, nearest_mul_mul num den pos]

theorem limit_le_pow : limit ≤ 10 ^ 309 * Binary64.one := by decide +kernel

/-- From 10^309 on no decimal is below the limit. -/
theorem limit_mul_le {c n k : Nat} (some : c ≠ 0) (past : k + 309 ≤ n) :
    limit * 10 ^ k ≤ c * 10 ^ n * Binary64.one := by
  obtain ⟨e, he, huge⟩ : ∃ e, e = 309 ∧ limit ≤ 10 ^ e * Binary64.one := ⟨309, rfl, limit_le_pow⟩
  have digits : 10 ^ e * 10 ^ k ≤ c * 10 ^ n := by
    rw [← Nat.pow_add]
    exact Nat.le_trans (Nat.pow_le_pow_right (by decide) (by omega))
      (Nat.le_mul_of_pos_left _ (Nat.pos_of_ne_zero some))
  generalize limit = bound at huge ⊢
  generalize Binary64.one = unit at huge ⊢
  calc bound * 10 ^ k ≤ 10 ^ e * unit * 10 ^ k := Nat.mul_le_mul_right _ huge
    _ = 10 ^ e * 10 ^ k * unit := Nat.mul_right_comm ..
    _ ≤ c * 10 ^ n * unit := Nat.mul_le_mul_right _ digits

/-- A decimal whose bits and power of ten say so is below half a unit. -/
theorem two_mul_lt_pow {c n k : Nat} (under : c.log2 + 1 + 1075 + 3 * n ≤ 3 * k) :
    2 * (c * 10 ^ n * Binary64.one) < 10 ^ k := by
  obtain ⟨t, ht, unit⟩ : ∃ t, t = 1074 ∧ Binary64.one = 2 ^ t := ⟨1074, rfl, rfl⟩
  obtain ⟨j, rfl⟩ : ∃ j, k = j + n := ⟨k - n, by omega⟩
  have binary : c * 2 ^ (t + 1) < 10 ^ j := calc
    c * 2 ^ (t + 1) < 2 ^ (c.log2 + 1) * 2 ^ (t + 1) :=
      Nat.mul_lt_mul_of_pos_right Nat.lt_log2_self (Nat.two_pow_pos _)
    _ = 2 ^ (c.log2 + 1 + (t + 1)) := by rw [← Nat.pow_add]
    _ ≤ 2 ^ (3 * j) := Nat.pow_le_pow_right Nat.two_pos (by omega)
    _ = 8 ^ j := by rw [Nat.pow_mul]
    _ ≤ 10 ^ j := Nat.pow_le_pow_left (by decide) j
  calc 2 * (c * 10 ^ n * Binary64.one) = c * 2 ^ (t + 1) * 10 ^ n := by
        rw [unit, Nat.pow_succ]
        ac_rfl
    _ < 10 ^ j * 10 ^ n := Nat.mul_lt_mul_of_pos_right binary (Nat.pow_pos (by decide))
    _ = 10 ^ (j + n) := by rw [Nat.pow_add]

/-- **A decimal is read as the double nearest to it.** -/
theorem Decimal.magnitude_eq (negative : Bool) (c n k : Nat) :
    magnitude negative c (n - k) = .round negative (c * 10 ^ n * Binary64.one) (10 ^ k) := by
  have power (i : Nat) : 0 < 10 ^ i := Nat.pow_pos (by decide)
  unfold magnitude
  split
  · rename_i none
    rw [none, Nat.zero_mul, Nat.zero_mul, Binary64.round_zero]
  · rename_i some
    split
    · exact (Binary64.round_of_limit_le negative (power k) (limit_mul_le some (by omega))).symm
    · split
      · rw [Binary64.round_of_nearest (m := .zero)]
        exact nearest_of_small (two_mul_lt_pow (by omega))
      · split
        · obtain ⟨j, rfl⟩ : ∃ j, n = k + j := ⟨n - k, by omega⟩
          have exponent : ((k + j : Nat) - k : Int).toNat = j := by omega
          rw [exponent, ← Binary64.round_mul_mul negative _ 1 (power k), Nat.one_mul, Nat.pow_add,
            Nat.mul_right_comm, Nat.mul_assoc c, Nat.mul_comm (10 ^ j)]
        · obtain ⟨j, rfl⟩ : ∃ j, k = n + j := ⟨k - n, by omega⟩
          have exponent : (-((n : Int) - (n + j : Nat))).toNat = j := by omega
          rw [exponent, ← Binary64.round_mul_mul negative _ _ (power n), ← Nat.pow_add,
            Nat.add_comm n, Nat.mul_right_comm]

theorem decade_spec {p : Nat} (pos : 0 < p) (top : Nat) : 10 ^ decade p top ≤ p := by
  induction top with
  | zero => exact pos
  | succ top ih =>
    unfold decade
    split
    · assumption
    · exact ih

theorem five_pos : 0 < five := by
  unfold five
  generalize 1074 = k
  exact Nat.pow_pos (by decide)

/-- A double's own value lies between the ends of the reals that round to it. -/
theorem roundsTo_self {u : Nat} (pos : 0 < u) : roundsTo u (u * five) = true := by
  have step : 0 < spacing u := Nat.two_pow_pos _
  have low : lowEnd u < 4 * u := by unfold lowEnd; split <;> omega
  have high : 4 * u < highEnd u := by unfold highEnd; omega
  have low' := Nat.mul_lt_mul_of_pos_right low five_pos
  have high' := Nat.mul_lt_mul_of_pos_right high five_pos
  rw [Nat.mul_assoc] at low' high'
  unfold roundsTo
  split
  · simp [Nat.le_of_lt low', Nat.le_of_lt high']
  · simp [low', high']

theorem roundsTo_onGrid {u n c : Nat} (h : onGrid? u n = some c) :
    roundsTo u (c * 10 ^ n) = true := by
  unfold onGrid? at h
  dsimp only at h
  split at h
  · cases h; assumption
  · split at h
    · cases h; assumption
    · cases h

theorem roundsTo_coarsest {u : Nat} (pos : 0 < u) (n : Nat) :
    roundsTo u ((coarsest u n).1 * 10 ^ (coarsest u n).2) = true := by
  induction n with
  | zero => simpa [coarsest] using roundsTo_self pos
  | succ n ih =>
    unfold coarsest
    split
    · rename_i found
      exact roundsTo_onGrid found
    · exact ih

theorem spacing_le_self {u : Nat} (pos : 0 < u) : spacing u ≤ u :=
  Nat.le_trans (Nat.pow_le_pow_right (by decide) (Nat.sub_le _ _)) (Nat.log2_self_le (by omega))

theorem two_mul_le_lowEnd {u : Nat} (pos : 0 < u) : 2 * u ≤ lowEnd u := by
  have step := spacing_le_self pos
  unfold lowEnd
  split <;> omega

/-- The shortest decimal is at least half the number. -/
theorem le_coarsest {u : Nat} (pos : 0 < u) (n : Nat) :
    u * five ≤ 2 * ((coarsest u n).1 * 10 ^ (coarsest u n).2) := by
  have low := Nat.mul_le_mul_right five (two_mul_le_lowEnd pos)
  rw [Nat.mul_assoc] at low
  have rounds := roundsTo_coarsest pos n
  unfold roundsTo at rounds
  split at rounds
  · simp only [Bool.and_eq_true, decide_eq_true_eq] at rounds
    omega
  · simp only [Bool.and_eq_true, decide_eq_true_eq] at rounds
    omega

end DeskCalculator.Number
