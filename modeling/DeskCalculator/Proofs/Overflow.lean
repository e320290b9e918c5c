import Mathlib.Tactic.MkIffOfInductiveProp
import DeskCalculator.Proofs.Mantissa
import DeskCalculator.Proofs.Scaling
import DeskCalculator.Proofs.Writing

/-!
# Where the display overflows

A number too long for the display is rounded to eleven digits and read again.
Past `brink` the digits go up to a decimal that no double reaches, so the display
shows the name of an infinity for a number that is none: `namesInfinity_shown_iff`.
-/

namespace DeskCalculator.Number

/-- Units of the middle between two decimals of eleven digits, of which the lower
one is the last that a double reaches. -/
def brink : Nat := 179769313485 * 10 ^ 297 * Binary64.one

/-- Units of the largest double. -/
def largest : Nat := (2 ^ 53 - 1) * 2 ^ 2045

theorem holds_largest : Holds largest := by
  obtain ⟨k, hk, same⟩ : ∃ k, k = 2045 ∧ largest = (2 ^ 53 - 1) * 2 ^ k := ⟨2045, rfl, rfl⟩
  obtain ⟨e, he, top⟩ : ∃ e, e = 2098 ∧ limit = 2 ^ e := ⟨2098, rfl, rfl⟩
  have exponent : e = 53 + k := by omega
  rw [same]
  refine ⟨?_, spacing_dvd_mul (by decide)⟩
  rw [top, exponent, Nat.pow_add]
  exact Nat.mul_lt_mul_of_pos_right (by decide) (Nat.two_pow_pos k)

theorem Magnitude.le_largest (m : Magnitude) : m.units ≤ largest := by
  have digits := Nat.le_sub_one_of_lt (div_spacing_lt m.units)
  have step : spacing m.units ≤ 2 ^ 2045 := by
    apply Nat.pow_le_pow_right (by decide)
    rcases Nat.eq_zero_or_pos m.units with none | pos
    · rw [none]
      decide
    · have := (Nat.log2_lt (Nat.ne_of_gt pos)).mpr m.holds.1
      omega
  have high := Nat.mul_le_mul digits step
  rw [Nat.div_mul_cancel m.holds.2] at high
  unfold largest
  exact high

/-- The first digits of the largest double, one and the given number of places. -/
def leading (places : Nat) : Nat := 17976931348623157 / 10 ^ (16 - places)

/-- Units of the middle between the decimal with these digits and the next one. -/
def edge (places : Nat) : Nat := (2 * leading places + 1) * 5 * 10 ^ (307 - places) * Binary64.one

theorem edge_ten : edge 10 = brink := by
  have digits : (2 * leading 10 + 1) * 5 = 179769313485 := by decide
  have places : 307 - 10 = 297 := rfl
  rw [edge, digits, places, brink]

/-- Units of 2^1021. Rounding to places changes no larger number. -/
def roundable : Nat := 2 ^ 2095

theorem roundable_bounds : 2 ^ 55 * Binary64.one ≤ roundable ∧ Holds roundable ∧
    limit ≤ roundable * 10 := by
  obtain ⟨k, hk, power⟩ : ∃ k, k = 2095 ∧ roundable = 2 ^ k := ⟨2095, rfl, rfl⟩
  obtain ⟨t, ht, unit⟩ : ∃ t, t = 1074 ∧ Binary64.one = 2 ^ t := ⟨1074, rfl, rfl⟩
  obtain ⟨e, he, top⟩ : ∃ e, e = 2098 ∧ limit = 2 ^ e := ⟨2098, rfl, rfl⟩
  have exponent : e = k + 3 := by omega
  rw [power, unit, top, exponent, ← Nat.pow_add]
  refine ⟨Nat.pow_le_pow_right Nat.two_pos (by omega), holds_two_pow (by omega), ?_⟩
  rw [Nat.pow_add]
  exact Nat.mul_le_mul_left _ (by decide)

/-- What is known of an edge. -/
@[mk_iff]
structure Edge (k : Fin 17) : Prop where
  /-- It is the middle between two decimals. -/
  middle : 2 * (edge k * five * 10 ^ k.val) = (2 * leading k + 1) * 10 ^ 1382
  /-- A double reaches the lower one, -/
  lower : leading k * 10 ^ 1382 ≤ largest * (10 ^ k.val * five)
  /-- and none reaches the upper one, unless the edge is past all doubles by itself. -/
  upper : limit * (10 ^ k.val * five) ≤ (leading k + 1) * 10 ^ 1382 ∨ largest < edge k
  between : ¬ Holds (edge k)
  /-- It is far from what rounding to places changes, -/
  far : roundable ≤ edge k
  /-- and further above 10^308 than a rounding moves it. -/
  wide : 2 ^ 53 * 10 ^ (1074 + 308) ≤ (2 ^ 53 - 1) * (edge k * five)

instance (k : Fin 17) : Decidable (Edge k) := decidable_of_iff' _ (edge_iff k)

theorem edge_spec : ∀ k, Edge k := by decide +kernel

theorem roundable_le_brink : roundable ≤ brink := edge_ten ▸ (edge_spec 10).far

/-- A number past the brink is far too long for the display. -/
theorem brink_wide : 2 * 10 ^ (16 + 1074) ≤ brink * five := by
  have wide := (edge_spec 10).wide
  have places : (10 : Fin 17).val = 10 := rfl
  rw [places, edge_ten] at wide
  obtain ⟨n, hn⟩ : ∃ n, n = 16 + 1074 := ⟨_, rfl⟩
  obtain ⟨k, hk⟩ : ∃ k, k = 1074 + 308 := ⟨_, rfl⟩
  have less : 10 ^ (n + 1) ≤ 10 ^ k := Nat.pow_le_pow_right (by decide) (by omega)
  rw [Nat.pow_succ] at less
  rw [← hk] at wide
  rw [← hn]
  omega

/-- The powers of ten around the largest double. -/
theorem largest_bounds :
    10 ^ 1382 ≤ largest * five ∧ 20 * (limit * five) < 19 * 10 ^ (1382 + 1) := by decide +kernel

theorem Decimal.magnitude_isFinite (negative : Bool) {c n k : Nat}
    (h : c * 10 ^ n * Binary64.one ≤ largest * 10 ^ k) :
    (magnitude negative c (n - k)).isFinite = true := by
  rw [magnitude_eq]
  exact Binary64.round_isFinite _ (Nat.pow_pos (by decide)) holds_largest h

theorem edge_wide (k : Fin 17) : 10 ^ 1382 ≤ edge k * five := by
  have wide := (edge_spec k).wide
  omega

/-! The digits of a number, c of them with n the exponent of the last -/

section

variable {k : Fin 17} {m : Magnitude} {c n : Nat}

/-- No double has digits of a higher exponent than its edge. -/
theorem exponent_le
    (least : 20 * (10 ^ k.val * 10 ^ n) ≤ 20 * (m.units * five * 10 ^ k.val) + 10 ^ n) :
    n ≤ 1382 := by
  have power : 0 < 10 ^ k.val := Nat.pow_pos (by decide)
  obtain ⟨-, top⟩ := largest_bounds
  obtain ⟨t, ht⟩ : ∃ t, t = 1382 := ⟨_, rfl⟩
  rw [← ht] at top ⊢
  apply Nat.le_of_not_lt
  intro past
  have grid : 10 ^ (t + 1) ≤ 10 ^ n := Nat.pow_le_pow_right (by decide) past
  have unit : 10 ^ n ≤ 10 ^ n * 10 ^ k.val := Nat.le_mul_of_pos_right _ power
  have under := Nat.mul_lt_mul_of_pos_right m.holds.1 five_pos
  have cut : 19 * 10 ^ n ≤ 20 * (m.units * five) := by
    apply Nat.le_of_mul_le_mul_right _ power
    rw [Nat.mul_assoc, Nat.mul_assoc]
    rw [Nat.mul_comm (10 ^ k.val)] at least
    omega
  omega

/-- Digits of a lower exponent are those of a number below the edge. -/
theorem below_edge_of_finer (negative : Bool) (finer : n < 1382) (count : c < 10 ^ (k.val + 1))
    (above : 2 * (m.units * five * 10 ^ k.val) ≤ 2 * (c * 10 ^ n) + 10 ^ n) :
    m.units ≤ edge k ∧
      (Binary64.round negative (c * 10 ^ n) (10 ^ k.val * five)).isFinite = true := by
  have power (i : Nat) : 0 < 10 ^ i := Nat.pow_pos (by decide)
  have wide := edge_wide k
  obtain ⟨high, -⟩ := largest_bounds
  obtain ⟨t, ht⟩ : ∃ t, t = 1382 := ⟨_, rfl⟩
  rw [← ht] at finer wide high
  have room : c * 10 ^ n + 10 ^ n ≤ 10 ^ t * 10 ^ k.val := by
    rw [← Nat.succ_mul]
    calc (c + 1) * 10 ^ n ≤ 10 ^ (k.val + 1) * 10 ^ n := Nat.mul_le_mul_right _ count
      _ = 10 ^ (n + 1) * 10 ^ k.val := by rw [Nat.pow_succ, Nat.pow_succ]; ac_rfl
      _ ≤ 10 ^ t * 10 ^ k.val :=
        Nat.mul_le_mul_right _ (Nat.pow_le_pow_right (by decide) finer)
  constructor
  · apply Nat.le_of_not_lt
    intro past
    have scaled := Nat.mul_le_mul_right (10 ^ k.val)
      (Nat.le_trans wide (Nat.mul_le_mul_right five (Nat.le_of_lt past)))
    have := power n
    omega
  · apply Binary64.round_isFinite _ (Nat.mul_pos (power k) five_pos) holds_largest
    calc c * 10 ^ n ≤ 10 ^ t * 10 ^ k.val := Nat.le_of_add_right_le room
      _ ≤ largest * five * 10 ^ k.val := Nat.mul_le_mul_right _ high
      _ = largest * (10 ^ k.val * five) := by rw [Nat.mul_assoc, Nat.mul_comm five]

/-- Digits of the exponent of the edge reach past all doubles just if the number is past the
edge, which is the middle between two of their steps. -/
theorem overflow_at_edge (negative : Bool)
    (above : 2 * (m.units * five * 10 ^ k.val) ≤ 2 * (c * 10 ^ 1382) + 10 ^ 1382)
    (below : 2 * (c * 10 ^ 1382) ≤ 2 * (m.units * five * 10 ^ k.val) + 10 ^ 1382) :
    (edge k < m.units →
      Binary64.round negative (c * 10 ^ 1382) (10 ^ k.val * five) = .infinity negative) ∧
    (m.units ≤ edge k →
      (Binary64.round negative (c * 10 ^ 1382) (10 ^ k.val * five)).isFinite = true) := by
  have power (i : Nat) : 0 < 10 ^ i := Nat.pow_pos (by decide)
  have den : 0 < 10 ^ k.val * five := Nat.mul_pos (power k) five_pos
  have within := m.le_largest
  obtain ⟨tie, lower, upper, between, -, -⟩ := edge_spec k
  obtain ⟨t, ht⟩ : ∃ t, t = 1382 := ⟨_, rfl⟩
  rw [← ht] at above below tie lower upper ⊢
  have step := power t
  have last : (2 * leading k + 1) * 10 ^ t = 2 * (leading k * 10 ^ t) + 10 ^ t := by
    rw [Nat.succ_mul, Nat.mul_assoc]
  constructor
  · intro past
    have scaled := Nat.mul_lt_mul_of_pos_right
      (Nat.mul_lt_mul_of_pos_right past five_pos) (power k)
    have more : leading k + 1 ≤ c := by
      apply Nat.lt_of_mul_lt_mul_right (a := 10 ^ t)
      omega
    rcases upper with reached | none
    · exact Binary64.round_of_limit_le _ den (Nat.le_trans reached (Nat.mul_le_mul_right _ more))
    · omega
  · intro less
    have other : m.units ≠ edge k := fun same => between (same ▸ m.holds)
    have scaled := Nat.mul_lt_mul_of_pos_right
      (Nat.mul_lt_mul_of_pos_right (Nat.lt_of_le_of_ne less other) five_pos) (power k)
    have most : c ≤ leading k := by
      apply Nat.le_of_lt_succ
      apply Nat.lt_of_mul_lt_mul_right (a := 10 ^ t)
      rw [Nat.succ_mul]
      omega
    exact Binary64.round_isFinite _ den holds_largest
      (Nat.le_trans (Nat.mul_le_mul_right _ most) lower)

end

/-- **Where the digits overflow.** Past its edge a number goes up to a decimal that no double
reaches; otherwise its digits read as a finite number. -/
theorem significant_edge (k : Fin 17) (negative : Bool) (m : Magnitude) :
    (edge k < m.units →
      (significant k negative m).decimal.nearest = .infinity negative) ∧
    (m.units ≤ edge k → (significant k negative m).decimal.nearest.isFinite = true) := by
  by_cases none : m.units = 0
  · refine ⟨fun past => absurd past (by omega), fun _ => ?_⟩
    unfold significant
    rw [if_pos none]
    rfl
  · obtain ⟨c, n, same, -, count, above, below, least⟩ := significant_spec k negative none
    rw [same, Scientific.nearest_eq]
    rcases Nat.lt_or_eq_of_le (exponent_le least) with finer | rfl
    · obtain ⟨less, finite⟩ := below_edge_of_finer negative finer count above
      exact ⟨fun past => absurd less (Nat.not_le.mpr past), fun _ => finite⟩
    · exact overflow_at_edge negative above below

theorem significant_isFinite (negative : Bool) {m : Magnitude} (h : m.units ≤ brink) :
    (significant 10 negative m).decimal.nearest.isFinite = true :=
  (significant_edge 10 negative m).2 (edge_ten ▸ h)

/-- Past the brink the eleven digits go up to a decimal that no double reaches. -/
theorem significant_infinity (negative : Bool) {m : Magnitude} (h : brink < m.units) :
    (significant 10 negative m).decimal.nearest = .infinity negative :=
  (significant_edge 10 negative m).1 (edge_ten ▸ h)

end DeskCalculator.Number

namespace DeskCalculator.Numeral
open Number

theorem lt_pow_length_digits (n : Nat) : n < 10 ^ (digits n).length :=
  (Nat.length_toDigits_le_iff (by decide) Nat.length_toDigits_pos).mp (Nat.le_refl _)

/-- Positional form has no fewer digits than the number has in front of the point. -/
theorem lt_length_positional {c n j k : Nat} (h : 10 ^ (k + j) ≤ c * 10 ^ n) (negative : Bool) :
    k < (positional ⟨negative, c, n - j⟩).length := by
  have count : k + j < (digits c).length + n := by
    apply (Nat.pow_lt_pow_iff_right (by decide : 1 < 10)).mp
    apply Nat.lt_of_le_of_lt h
    rw [Nat.pow_add]
    exact Nat.mul_lt_mul_of_pos_right (lt_pow_length_digits c) (Nat.pow_pos (by decide))
  unfold positional
  dsimp only
  split
  · rw [List.length_append, List.length_replicate]
    omega
  · have long : (digits c).length ≤ (pointed (-(n - j : Int)).toNat (digits c)).length := by
      simp only [pointed, padded, List.length_append, List.length_take, List.length_cons,
        List.length_drop, List.length_replicate]
      omega
    omega

theorem lt_length_plain {negative : Bool} {m : Magnitude} {k : Nat}
    (h : 2 * 10 ^ (k + 1074) ≤ m.units * five) :
    k < (plain (.finite negative m)).length := by
  have some : m.units ≠ 0 := by
    intro none
    rw [none, Nat.zero_mul] at h
    exact absurd h (Nat.not_le.mpr (Nat.mul_pos (by decide) (Nat.pow_pos (by decide))))
  have reached := le_coarsest (by omega : 0 < m.units) (topGrid m.units)
  rw [plain, String.length_ofList, List.length_append, shortest, if_neg some]
  apply Nat.lt_of_lt_of_le _ (Nat.le_add_left _ _)
  apply lt_length_positional (j := 1074)
  omega

end DeskCalculator.Numeral

namespace DeskCalculator.Display
open Number Numeral

/-- A large number is whole, and stays what it is when it is rounded to none. -/
theorem rounded_whole (s : Bool) {m : Magnitude} (large : 2 ^ 53 * Binary64.one ≤ m.units) :
    rounded (0 : Fin 16).val (.finite s m) = .ok (.finite s m) := by
  have power : 10 ^ (0 : Fin 16).val = 1 := rfl
  obtain ⟨k, rounds, units⟩ := rounded_finite (d := 0) s (m := m) (p := m)
    (by rw [power, Nat.mul_one, nearest_eq m.holds.2])
  have same := steps_mul_of_le s large
  have some : steps s m.units ≠ 0 := by
    intro none
    have := Binary64.one_pos
    rw [none] at same
    omega
  rw [same, power, nearest_eq m.holds.2] at units
  rw [rounds, Magnitude.eq_of_units units]
  simp [some]

/-- Only small numbers are rounded, and stay small. -/
theorem rounded_eq_or {d : Fin 16} {s : Bool} {m : Magnitude} {y : Binary64}
    (h : rounded d (.finite s m) = .ok y) :
    y = .finite s m ∨ m.units ≤ roundable ∧ ∃ t k, y = .finite t k ∧ k.units ≤ roundable := by
  obtain ⟨low, holds, tenth⟩ := roundable_bounds
  have unit := Binary64.one_pos
  rcases Nat.eq_zero_or_pos d.val with none | places
  · obtain rfl : d = 0 := Fin.ext none
    rcases Nat.lt_or_ge m.units (2 ^ 53 * Binary64.one) with small | large
    · obtain ⟨k, rounds, units⟩ := rounded_finite (d := 0) s (m := m) (p := m)
        (by rw [none, Nat.pow_zero, Nat.mul_one, nearest_eq m.holds.2])
      have near := (steps_near s small).1
      have least : k.units ≤ roundable := by
        rw [units, none, Nat.pow_zero]
        exact nearest_le Nat.one_pos holds.2 (by omega)
      exact .inr ⟨by omega, _, k, (Except.ok.inj (rounds.symm.trans h)).symm, least⟩
    · exact .inl (Except.ok.inj (h.symm.trans (rounded_whole s large)))
  · have power : 0 < 10 ^ d.val := Nat.pow_pos (by decide)
    have reach {n : Nat} (under : n < limit) : n ≤ roundable * 10 ^ d.val := by
      have step := Nat.pow_le_pow_right (n := 10) (by decide) places
      exact Nat.le_trans (Nat.le_of_lt under) (Nat.le_trans tenth (Nat.mul_le_mul_left _ step))
    rcases Nat.lt_or_ge (nearest (m.units * 10 ^ d.val) 1) limit with under | past
    · obtain ⟨k, rounds, units⟩ := rounded_finite s
        (p := ⟨_, under, spacing_dvd_nearest _ _⟩) rfl
      have least : k.units ≤ roundable := by
        rw [units]
        exact nearest_le power holds.2 (reach (holds_steps s _).1)
      have small : m.units * 10 ^ d.val < limit := by
        apply Nat.lt_of_not_le
        intro past
        rw [← Nat.mul_one limit] at past
        exact absurd (le_nearest Nat.one_pos spacing_dvd_limit past) (Nat.not_le.mpr under)
      exact .inr ⟨Nat.le_of_mul_le_mul_right (reach small) power, _, k,
        (Except.ok.inj (rounds.symm.trans h)).symm, least⟩
    · exact .inl (Except.ok.inj (h.symm.trans (rounded_past s past)))

/-- The digits of a number that does not fit name an infinity past the brink only. -/
theorem namesInfinity_layout {s : Bool} {m : Magnitude} {text : String}
    (h : layout Panel.standard.params (.finite s m) = .ok text) :
    namesInfinity text.toList = true ↔ brink < m.units := by
  have digits : scientific? Panel.standard.params.exponentDigits (.finite s m) =
      .ok (significant 10 s m) := rfl
  have plainly {x : Binary64} (finite : x.isFinite = true) :
      namesInfinity (plain x).toList = false := not_namesInfinity (accepts_plain finite)
  unfold layout shortened at h
  rw [digits] at h
  simp only [bind, Except.bind] at h
  by_cases past : brink < m.units
  · have long : 16 < (plain (.finite s m)).length := by
      exact lt_length_plain (Nat.le_trans brink_wide (Nat.mul_le_mul_right _ (Nat.le_of_lt past)))
    have spread : fits Panel.standard.params (plain (.finite s m)) = false := by
      simp only [fits, decide_eq_false_iff_not, Int.not_le]
      exact Int.ofNat_lt.mpr long
    have short : fits Panel.standard.params (plain (.infinity s)) = true := by
      cases s <;> decide
    rw [significant_infinity s past, spread, short] at h
    rw [← Except.ok.inj h]
    simp [past, namesInfinity_plain]
  · have finite := significant_isFinite s (Nat.not_lt.mp past)
    simp only [past, iff_false, Bool.not_eq_true]
    split at h
    · rw [← Except.ok.inj h]
      exact plainly rfl
    · rw [← Except.ok.inj h]
      split
      · exact plainly finite
      · exact not_namesInfinity (accepts_scientific _)

/-- **Where the display overflows.** A finite number shows as an infinity just
when it is past the brink. -/
theorem namesInfinity_shown_iff (s : Bool) (m : Magnitude) :
    namesInfinity (Panel.standard.shown (some (.finite s m))).toList = true ↔
      brink < m.units := by
  obtain ⟨y, hy, -, laid⟩ := layout_eq_shown .standard (x := .finite s m) rfl
  rcases rounded_eq_or (d := 12) hy with rfl | ⟨low, t, k, rfl, small⟩
  · exact namesInfinity_layout laid
  · have wide := roundable_le_brink
    rw [namesInfinity_layout laid]
    omega

end DeskCalculator.Display
