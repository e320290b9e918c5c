import DeskCalculator.Proofs.HalfStep

/-!
# The grid of a decimal

A power of ten is a grid, and a decimal is a point on it. The reals that round to one
double have no gap (`roundsTo_between`), so a grid on which any point rounds to it is one
where the search for the shortest decimal finds a point, and the search stops there at the
latest: `le_coarsest_grid`. Decimals of fifteen digits stand farther apart than doubles, so
of doubles that are neighbours one at most has such a decimal: `eq_of_short`.
-/

namespace DeskCalculator.Number

theorem two_pow_mul_five_pow_le {l k q : Nat} (h : l ≤ k + 13 * q) :
    2 ^ l * 5 ^ k ≤ 10 ^ (k + 4 * q) := by
  have tens : 10 ^ k = 2 ^ k * 5 ^ k := Nat.mul_pow 2 5 k
  calc 2 ^ l * 5 ^ k
      ≤ 2 ^ (k + 13 * q) * 5 ^ k := Nat.mul_le_mul_right _ (Nat.pow_le_pow_right Nat.two_pos h)
    _ = 2 ^ k * 5 ^ k * 8192 ^ q := by
        rw [Nat.pow_add, Nat.pow_mul, Nat.mul_right_comm]
    _ ≤ 2 ^ k * 5 ^ k * 10000 ^ q := Nat.mul_le_mul_left _ (Nat.pow_le_pow_left (by decide) q)
    _ = 10 ^ (k + 4 * q) := by rw [← tens, Nat.pow_add, Nat.pow_mul]

theorem two_pow_mul_five_pow_le_sub {l k q : Nat} (h : l + 10 * q ≤ k) :
    2 ^ l * 5 ^ k ≤ 10 ^ (k - 3 * q) := by
  have tens : 10 ^ k = 2 ^ k * 5 ^ k := Nat.mul_pow 2 5 k
  have sum : k - 3 * q + 3 * q = k := by omega
  apply Nat.le_of_mul_le_mul_right _ (Nat.pow_pos (n := 3 * q) (by decide : 0 < 10))
  calc 2 ^ l * 5 ^ k * 10 ^ (3 * q)
      = 2 ^ l * 1000 ^ q * 5 ^ k := by rw [Nat.pow_mul, Nat.mul_right_comm]
    _ ≤ 2 ^ l * 1024 ^ q * 5 ^ k :=
        Nat.mul_le_mul_right _ (Nat.mul_le_mul_left _ (Nat.pow_le_pow_left (by decide) q))
    _ = 2 ^ (l + 10 * q) * 5 ^ k := by rw [Nat.pow_add, Nat.pow_mul]
    _ ≤ 2 ^ k * 5 ^ k := Nat.mul_le_mul_right _ (Nat.pow_le_pow_right Nat.two_pos h)
    _ = 10 ^ (k - 3 * q) * 10 ^ (3 * q) := by rw [← Nat.pow_add, sum, tens]

theorem lt_pow_topGrid (u : Nat) : u * five < 10 ^ topGrid u := by
  have binary : u < 2 ^ (u.log2 + 1) := Nat.lt_log2_self
  refine Nat.lt_of_lt_of_le (Nat.mul_lt_mul_of_pos_right binary five_pos) ?_
  obtain ⟨k, hk, fives⟩ : ∃ k, k = 1074 ∧ five = 5 ^ k := ⟨1074, rfl, rfl⟩
  rw [topGrid, fives, ← hk]
  split
  · exact two_pow_mul_five_pow_le (by omega)
  · exact two_pow_mul_five_pow_le_sub (by omega)

theorem lt_pow_decade {p top : Nat} (high : p < 10 ^ (top + 1)) :
    p < 10 ^ (decade p top + 1) := by
  induction top with
  | zero => exact high
  | succ top ih =>
    unfold decade
    split
    · exact high
    · rename_i missed
      exact ih (Nat.lt_of_not_le missed)

/-- What lies between a double and a real that rounds to it rounds to it as well. -/
theorem roundsTo_between {u p q : Nat} (pos : 0 < u) (h : roundsTo u p = true)
    (between : p ≤ q ∧ q ≤ u * five ∨ u * five ≤ q ∧ q ≤ p) : roundsTo u q = true := by
  have itself := roundsTo_self pos
  unfold roundsTo at h itself ⊢
  split
  · rw [if_pos ‹_›, Bool.and_eq_true, decide_eq_true_eq, decide_eq_true_eq] at h itself
    rw [Bool.and_eq_true, decide_eq_true_eq, decide_eq_true_eq]
    omega
  · rw [if_neg ‹_›, Bool.and_eq_true, decide_eq_true_eq, decide_eq_true_eq] at h itself
    rw [Bool.and_eq_true, decide_eq_true_eq, decide_eq_true_eq]
    omega

/-- On a grid where some point rounds to a double one of its two neighbours does. -/
theorem onGrid?_isSome {u n k : Nat} (pos : 0 < u) (h : roundsTo u (k * 10 ^ n) = true) :
    (onGrid? u n).isSome = true := by
  have power : 0 < 10 ^ n := Nat.pow_pos (by decide)
  have low := div_le_halfEven (u * five) (10 ^ n)
  have high := halfEven_le (u * five) (10 ^ n)
  have below := Nat.div_mul_le_self (u * five) (10 ^ n)
  have above : u * five < (u * five / 10 ^ n + 1) * 10 ^ n :=
    Nat.lt_mul_of_div_lt (Nat.lt_succ_self _) power
  unfold onGrid?
  dsimp only
  generalize halfEven (u * five) (10 ^ n) = near at low high
  generalize u * five / 10 ^ n = b at low high below above
  have neighbour : roundsTo u (b * 10 ^ n) = true ∨ roundsTo u ((b + 1) * 10 ^ n) = true := by
    rcases Nat.lt_or_ge b k with up | down
    · exact .inr (roundsTo_between pos h (.inr ⟨Nat.le_of_lt above, Nat.mul_le_mul_right _ up⟩))
    · exact .inl (roundsTo_between pos h (.inl ⟨Nat.mul_le_mul_right _ down, below⟩))
  have either : near = b ∨ near = b + 1 := by omega
  split
  · rfl
  · rename_i missed
    rcases either with rfl | rfl
    · rw [Nat.add_sub_cancel_left, if_pos (neighbour.resolve_left missed)]
      rfl
    · rw [Nat.add_sub_cancel, if_pos (neighbour.resolve_right missed)]
      rfl

/-- The shortest decimal is on the coarsest grid that has any point for the double. -/
theorem le_coarsest_grid {u n k top : Nat} (pos : 0 < u) (h : roundsTo u (k * 10 ^ n) = true)
    (reach : n ≤ top) : n ≤ (coarsest u top).2 := by
  induction top with
  | zero => exact reach
  | succ top ih =>
    unfold coarsest
    split
    · exact reach
    · rename_i none
      apply ih
      have : n ≠ top + 1 := by
        rintro rfl
        have found := onGrid?_isSome pos h
        rw [none] at found
        cases found
      omega

theorem Within.relative {u num den : Nat} (h : Within u num den) (normal : 2 ^ 52 ≤ u) :
    2 ^ 53 * num ≤ (2 ^ 53 + 1) * (u * den) ∧ (2 ^ 53 - 1) * (u * den) ≤ 2 ^ 53 * num := by
  obtain ⟨low, high⟩ := h.le
  have step := Nat.mul_le_mul_right den (spacing_mul_le normal)
  rw [Nat.mul_right_comm] at step
  have ends : 4 * u - 2 * spacing u ≤ lowEnd u := by
    unfold lowEnd
    split <;> omega
  have low := Nat.le_trans (Nat.mul_le_mul_right den ends) low
  rw [Nat.sub_mul, Nat.mul_assoc, Nat.mul_assoc] at low
  rw [highEnd, Nat.add_mul, Nat.mul_assoc, Nat.mul_assoc] at high
  generalize u * den = x at *
  generalize spacing u * den = s at *
  omega

/-- Decimals of fifteen digits are apart by one part in 10^15 at least. -/
theorem short_gap {a b i j : Nat} (ha : a < 10 ^ 15) (hb : b < 10 ^ 15)
    (less : a * 10 ^ i < b * 10 ^ j) :
    10 ^ 15 * (a * 10 ^ i) + a * 10 ^ i < 10 ^ 15 * (b * 10 ^ j) := by
  have power (n : Nat) : 0 < 10 ^ n := Nat.pow_pos (by decide)
  have small := Nat.mul_lt_mul_of_pos_right ha (power i)
  have small' := Nat.mul_lt_mul_of_pos_right hb (power j)
  rcases Nat.le_total i j with fine | coarse
  · have step := add_le_of_dvd (Nat.dvd_mul_left (10 ^ i) a)
      (Nat.dvd_trans (Nat.pow_dvd_pow 10 fine) (Nat.dvd_mul_left (10 ^ j) b)) less
    omega
  · have step := add_le_of_dvd (Nat.dvd_trans (Nat.pow_dvd_pow 10 coarse)
      (Nat.dvd_mul_left (10 ^ i) a)) (Nat.dvd_mul_left (10 ^ j) b) less
    omega

/-- Numbers that are three parts in 4 · 10^15 apart at most, which is a few doubles. -/
def Near (w v : Nat) : Prop :=
  4 * 10 ^ 15 * w ≤ (4 * 10 ^ 15 + 3) * v ∧ (4 * 10 ^ 15 - 3) * v ≤ 4 * 10 ^ 15 * w

theorem Near.refl (w : Nat) : Near w w := by
  constructor <;> omega

/-- **Of neighbouring doubles one at most has a decimal of fifteen digits.** -/
theorem eq_of_short {w v a b i j : Nat} (ha : a < 10 ^ 15) (hb : b < 10 ^ 15)
    (hw : Within w (a * 10 ^ i) five) (hv : Within v (b * 10 ^ j) five)
    (holds : spacing w ∣ w) (holds' : spacing v ∣ v) (normal : 2 ^ 52 ≤ w) (normal' : 2 ^ 52 ≤ v)
    (close : Near w v) : w = v := by
  have same : a * 10 ^ i = b * 10 ^ j := by
    have near := Nat.mul_le_mul_right five close.1
    have near' := Nat.mul_le_mul_right five close.2
    have apart := short_gap (i := i) (j := j) ha hb
    have apart' := short_gap (i := j) (j := i) hb ha
    obtain ⟨high, low⟩ := hw.relative normal
    obtain ⟨high', low'⟩ := hv.relative normal'
    have some := Nat.mul_pos (by omega : 0 < v) five_pos
    rw [Nat.mul_assoc _ w, Nat.mul_assoc _ v] at near near'
    generalize w * five = x at *
    generalize v * five = y at *
    generalize a * 10 ^ i = p at *
    generalize b * 10 ^ j = q at *
    omega
  rw [same] at hw
  have first := nearest_of_within (by omega) five_pos holds hw
  have second := nearest_of_within (by omega) five_pos holds' hv
  exact first.symm.trans second

/-- A whole decimal in units of its grid. -/
theorem mul_pow_integral (c j : Nat) :
    c * 10 ^ (1074 + j) = c * 10 ^ j * Binary64.one * five := by
  obtain ⟨k, hk, tens⟩ : ∃ k, k = 1074 ∧ Binary64.one * five = 10 ^ k := ⟨_, rfl, one_mul_five⟩
  rw [← hk, Nat.mul_assoc _ Binary64.one, tens, Nat.pow_add, Nat.mul_comm (10 ^ k),
    ← Nat.mul_assoc]

theorem coarsest_pos {u c n : Nat} (some : 0 < u) (found : coarsest u (topGrid u) = (c, n)) :
    0 < c := by
  apply Nat.pos_of_ne_zero
  rintro rfl
  have least := le_coarsest some (topGrid u)
  rw [found, Nat.zero_mul] at least
  have := Nat.mul_pos some five_pos
  omega

theorem within_coarsest {u c n : Nat} (some : 0 < u) (found : coarsest u (topGrid u) = (c, n)) :
    Within u (c * 10 ^ n) five := by
  have rounds := roundsTo_iff.mp (roundsTo_coarsest some (topGrid u))
  rw [found] at rounds
  exact rounds

theorem nearest_coarsest {u c n : Nat} (some : 0 < u) (holds : spacing u ∣ u)
    (found : coarsest u (topGrid u) = (c, n)) : nearest (c * 10 ^ n) five = u :=
  nearest_of_within some five_pos holds (within_coarsest some found)

/-- The shortest decimal of a whole number is whole. -/
theorem coarsest_integral {n : Nat} (pos : 0 < n) :
    ∃ c j, coarsest (n * Binary64.one) (topGrid (n * Binary64.one)) = (c, 1074 + j) := by
  have some : 0 < n * Binary64.one := Nat.mul_pos pos Binary64.one_pos
  have exact : n * Binary64.one * five = n * 10 ^ 1074 := by rw [Nat.mul_assoc, one_mul_five]
  have rounds := roundsTo_self some
  rw [exact] at rounds
  obtain ⟨k, hk, unit⟩ : ∃ k, k = 1074 ∧ Binary64.one = 2 ^ k := ⟨1074, rfl, rfl⟩
  have exponent : 1074 ≤ (n * Binary64.one).log2 := by
    rw [Nat.le_log2 (Nat.ne_of_gt some), ← hk, unit]
    exact Nat.le_mul_of_pos_left _ pos
  have reach : 1074 ≤ topGrid (n * Binary64.one) := by
    rw [topGrid, if_pos exponent]
    omega
  have grid := le_coarsest_grid some rounds reach
  generalize coarsest (n * Binary64.one) (topGrid (n * Binary64.one)) = point at grid ⊢
  obtain ⟨c, g⟩ := point
  obtain ⟨j, rfl⟩ := Nat.exists_eq_add_of_le grid
  exact ⟨c, j, rfl⟩

/-- The shortest decimal of a whole number below 2^53 is that number without its last zeros. -/
theorem coarsest_whole {n : Nat} (pos : 0 < n) (h : n < 2 ^ 53) :
    ∃ c j, coarsest (n * Binary64.one) (topGrid (n * Binary64.one)) = (c, 1074 + j) ∧
      c * 10 ^ j = n := by
  have some : 0 < n * Binary64.one := Nat.mul_pos pos Binary64.one_pos
  obtain ⟨c, j, same⟩ := coarsest_integral pos
  refine ⟨c, j, same, ?_⟩
  obtain ⟨low, high⟩ := (roundsTo_iff.mp (roundsTo_coarsest some (topGrid (n * Binary64.one)))).le
  rw [same] at low high
  obtain ⟨k, hk, unit⟩ : ∃ k, k = 1074 ∧ Binary64.one = 2 ^ k := ⟨1074, rfl, rfl⟩
  have step : spacing (n * Binary64.one) ≤ Binary64.one := by
    have size : (n * Binary64.one).log2 < 53 + k := by
      rw [Nat.log2_lt (Nat.ne_of_gt some), unit, Nat.pow_add]
      exact Nat.mul_lt_mul_of_pos_right h (Nat.two_pow_pos k)
    exact Nat.le_trans (Nat.pow_le_pow_right Nat.two_pos (by omega)) (Nat.le_of_eq unit.symm)
  have ends : (4 * n - 2) * Binary64.one ≤ lowEnd (n * Binary64.one) ∧
      highEnd (n * Binary64.one) ≤ (4 * n + 2) * Binary64.one := by
    unfold lowEnd highEnd
    rw [Nat.sub_mul, Nat.add_mul, Nat.mul_assoc]
    constructor
    · split <;> omega
    · omega
  dsimp only at low high
  rw [mul_pow_integral, ← Nat.mul_assoc, ← Nat.mul_assoc] at low high
  have low := Nat.le_of_mul_le_mul_right low five_pos
  have high := Nat.le_of_mul_le_mul_right high five_pos
  have low := Nat.le_of_mul_le_mul_right (Nat.le_trans ends.1 low) Binary64.one_pos
  have high := Nat.le_of_mul_le_mul_right (Nat.le_trans high ends.2) Binary64.one_pos
  omega

end DeskCalculator.Number
