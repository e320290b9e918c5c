import DeskCalculator.Display.Faultless
import DeskCalculator.Proofs.HalfStep

/-!
# Rounding to places, on whole numbers

A number is scaled, moved up by half and cut down to a whole number of steps, and that is
scaled back; each of these operations rounds. `rounded_finite` says what is left of them: of
the scaled number `steps` are taken, and the quotient is rounded once. Where neighbouring
doubles are half a step apart or less, a scaled number is as many steps as it should be
(`steps_false_eq`, `steps_true_eq`); where they are two steps apart or more, it is what it
was (`steps_mul_of_le`), and between that it is two steps away at most.
-/

namespace DeskCalculator.Display
open Number

/-- Units in one half. -/
def halfOne : Nat := 2 ^ 1073

theorem two_mul_halfOne : 2 * halfOne = Binary64.one := by
  unfold halfOne Binary64.one
  generalize hk : 1073 = k
  have next : 1074 = k + 1 := by omega
  rw [next, Nat.pow_succ']

theorem holds_halfOne : Holds halfOne := by
  obtain ⟨k, hk, half⟩ : ∃ k, k = 1073 ∧ halfOne = 2 ^ k := ⟨1073, rfl, rfl⟩
  rw [half]
  exact holds_two_pow (by omega)

theorem half_eq : half = .finite false ⟨halfOne, holds_halfOne⟩ := by decide +kernel

/-- The steps in a scaled number after half is added: whole ones below it, and above a
negative one. -/
def steps (negative : Bool) (p : Nat) : Nat :=
  if negative then (nearest (p - halfOne) 1 + (Binary64.one - 1)) / Binary64.one
  else nearest (p + halfOne) 1 / Binary64.one

end DeskCalculator.Display

namespace DeskCalculator.Number

/-- Two numbers with the same whole part have the same spacing. -/
theorem spacing_of_whole {x z : Nat} (pos : 0 < z) (low : z * Binary64.one ≤ x)
    (high : x < (z + 1) * Binary64.one) : spacing x = 2 ^ (z.log2 + 1022) := by
  obtain ⟨k, hk, unit⟩ : ∃ k, k = 1074 ∧ Binary64.one = 2 ^ k := ⟨1074, rfl, rfl⟩
  have some := Nat.ne_of_gt pos
  have below := Nat.log2_self_le some
  have above := Nat.lt_log2_self (n := z)
  rw [unit] at low high
  have exponent : x.log2 = z.log2 + k := by
    rw [Nat.log2_eq_iff (by have := Nat.mul_pos pos (Nat.two_pow_pos k); omega)]
    constructor
    · rw [Nat.pow_add]
      exact Nat.le_trans (Nat.mul_le_mul_right _ below) low
    · rw [Nat.add_right_comm, Nat.pow_add]
      exact Nat.lt_of_lt_of_le high (Nat.mul_le_mul_right _ above)
  have : z.log2 + k - 52 = z.log2 + 1022 := by omega
  rw [spacing, exponent, this]

theorem log2_sub_le {x k t : Nat} (unit : Binary64.one = 2 ^ t) (h : x < 2 ^ k * Binary64.one) :
    x.log2 - 52 ≤ k + t - 53 := by
  rw [unit, ← Nat.pow_add] at h
  rcases Nat.eq_zero_or_pos x with rfl | pos
  · simp
  · have := (Nat.log2_lt (Nat.ne_of_gt pos)).mpr h
    omega

/-- The spacing below a power of two. -/
theorem spacing_mul_pow_le {x k : Nat} (h : x < 2 ^ k * Binary64.one) :
    spacing x * 2 ^ 53 ≤ 2 ^ k * Binary64.one := by
  obtain ⟨t, ht, unit⟩ : ∃ t, t = 1074 ∧ Binary64.one = 2 ^ t := ⟨1074, rfl, rfl⟩
  have exponent := log2_sub_le unit h
  rw [spacing, ← Nat.pow_add, unit, ← Nat.pow_add]
  exact Nat.pow_le_pow_right Nat.two_pos (by omega)

end DeskCalculator.Number

namespace DeskCalculator.Display
open Number Binary64

theorem halfOne_pos : 0 < halfOne := by
  unfold halfOne
  generalize 1073 = k
  exact Nat.two_pow_pos k

/-- Below 2^52 neighbours are half a step apart or less. -/
theorem spacing_dvd_halfOne {x : Nat} (h : x < 2 ^ 52 * one) : spacing x ∣ halfOne := by
  obtain ⟨k, hk, half⟩ : ∃ k, k = 1073 ∧ halfOne = 2 ^ k := ⟨1073, rfl, rfl⟩
  have unit : one = 2 ^ (k + 1) := by rw [← two_mul_halfOne, half, Nat.pow_succ']
  have := log2_sub_le unit h
  rw [half]
  exact Nat.pow_dvd_pow 2 (by omega)

/-- **Enough digits.** A scaled number that is less than half a step away from a whole
number of them is that many steps, and so is a tie on the side of zero. -/
theorem steps_false_eq {z p : Nat} (pos : 0 < z) (small : z < 2 ^ 52) (holds : spacing p ∣ p)
    (low : 2 * (z * one) ≤ 2 * p + one) (high : 2 * p < 2 * (z * one) + one) :
    steps false p = z := by
  have twice := two_mul_halfOne
  have room := Nat.mul_le_mul_right one small
  rw [Nat.succ_mul] at room
  have least : z * one ≤ nearest (p + halfOne) 1 :=
    le_nearest Nat.one_pos (holds_whole (by omega)).2 (by omega)
  have most : nearest (p + halfOne) 1 < (z + 1) * one := by
    rw [Nat.succ_mul]
    rcases Nat.lt_or_ge (z * one) p with above | below
    · -- no power of two is crossed, so adding half is exact
      have same : spacing (p + halfOne) = spacing p := by
        rw [spacing_of_whole pos (Nat.le_of_lt above) (by rw [Nat.succ_mul]; omega),
          spacing_of_whole pos (by omega) (by rw [Nat.succ_mul]; omega)]
      have exact : spacing (p + halfOne) ∣ p + halfOne := by
        rw [same]
        exact Nat.dvd_add holds (spacing_dvd_halfOne (by omega))
      rw [nearest_eq exact]
      omega
    · have holds : spacing (z * one + halfOne) ∣ z * one + halfOne := by
        have step := spacing_dvd_halfOne (x := z * one + halfOne) (by omega)
        refine Nat.dvd_add (Nat.dvd_trans step ?_) step
        rw [← twice]
        exact Nat.dvd_trans (Nat.dvd_mul_left _ _) (Nat.dvd_mul_left _ _)
      have : nearest (p + halfOne) 1 ≤ z * one + halfOne :=
        nearest_le Nat.one_pos holds (by omega)
      have := halfOne_pos
      omega
  rw [steps, if_neg Bool.false_ne_true]
  exact Nat.div_eq_of_lt_le least most

theorem steps_true_eq {z p : Nat} (small : z < 2 ^ 52) (holds : spacing p ∣ p)
    (low : 2 * (z * one) < 2 * p + one) (high : 2 * p ≤ 2 * (z * one) + one) :
    steps true p = z := by
  have twice := two_mul_halfOne
  have unit := Binary64.one_pos
  have room := Nat.mul_le_mul_right one small
  rw [Nat.succ_mul] at room
  -- taking half away is exact, since the spacing does not grow
  have exact : spacing (p - halfOne) ∣ p - halfOne := by
    have finer := spacing_dvd_spacing (Nat.sub_le p halfOne)
    refine Nat.dvd_trans finer (Nat.dvd_sub holds (spacing_dvd_halfOne ?_))
    omega
  rw [steps, if_pos rfl, nearest_eq exact]
  apply Nat.div_eq_of_lt_le
  · omega
  · rw [Nat.succ_mul]
    omega

/-- The spacing at 2^53. -/
theorem spacing_whole : spacing (2 ^ 53 * one) = 2 * one ∧
    nearest (2 ^ 53 * one - halfOne) 1 = 2 ^ 53 * one := by decide +kernel

/-- From 2^53 on half a step more or less is lost. -/
theorem nearest_halfOne {p : Magnitude} (large : 2 ^ 53 * one ≤ p.units) :
    nearest (p.units + halfOne) 1 = p.units ∧ nearest (p.units - halfOne) 1 = p.units := by
  have twice := two_mul_halfOne
  have unit := Binary64.one_pos
  obtain ⟨step, edge⟩ := spacing_whole
  have pos : 0 < p.units := by omega
  have wide (x : Nat) (h : 2 ^ 53 * one ≤ x) : 2 * one ≤ spacing x := by
    rw [← step]
    exact Nat.le_of_dvd (spacing_pos x) (spacing_dvd_spacing h)
  have above := wide p.units large
  constructor
  · apply nearest_of_within pos Nat.one_pos p.holds.2
    apply within_of_lt
    · rw [lowEnd_eq pos]
      have := spacing_pos (p.units - 1)
      omega
    · rw [highEnd]
      omega
  · rcases Nat.eq_or_lt_of_le large with here | past
    · rw [← here]
      exact edge
    · have below := wide (p.units - 1) (by omega)
      apply nearest_of_within pos Nat.one_pos p.holds.2
      apply within_of_lt
      · rw [lowEnd_eq pos]
        omega
      · rw [highEnd]
        omega

/-- **Large numbers are whole already.** -/
theorem steps_mul_of_le (s : Bool) {p : Magnitude} (large : 2 ^ 53 * one ≤ p.units) :
    steps s p.units * one = p.units := by
  have unit := Binary64.one_pos
  obtain ⟨k, whole⟩ := Binary64.one_dvd large
  obtain ⟨more, less⟩ := nearest_halfOne large
  have count : steps s p.units = k := by
    unfold steps
    rw [more, less, whole, Nat.mul_comm]
    split
    · apply Nat.div_eq_of_lt_le
      · omega
      · rw [Nat.succ_mul]
        omega
    · exact Nat.mul_div_cancel k unit
  rw [count, whole, Nat.mul_comm]

/-- Below that the steps are two off at most. -/
theorem steps_near (s : Bool) {p : Nat} (small : p < 2 ^ 53 * one) :
    steps s p * one ≤ p + 2 * one ∧ p ≤ steps s p * one + 2 * one := by
  have twice := two_mul_halfOne
  have unit := Binary64.one_pos
  have narrow (x : Nat) (h : x < 2 ^ 54 * one) : spacing x ≤ 2 * one := by
    have := spacing_mul_pow_le h
    omega
  cases s with
  | false =>
    have near := nearest_error (p + halfOne) Nat.one_pos
    have step := narrow ((p + halfOne) / 1) (by omega)
    have low := Nat.div_mul_le_self (nearest (p + halfOne) 1) one
    have high := Nat.lt_mul_div_succ (nearest (p + halfOne) 1) unit
    rw [Nat.mul_comm, Nat.succ_mul] at high
    rw [steps, if_neg Bool.false_ne_true]
    omega
  | true =>
    have near := nearest_error (p - halfOne) Nat.one_pos
    have step := narrow ((p - halfOne) / 1) (by omega)
    have low := Nat.div_mul_le_self (nearest (p - halfOne) 1 + (one - 1)) one
    have high := Nat.lt_mul_div_succ (nearest (p - halfOne) 1 + (one - 1)) unit
    rw [Nat.mul_comm, Nat.succ_mul] at high
    rw [steps, if_pos rfl]
    omega

theorem neg_ediv_eq (q : Nat) {b : Nat} (pos : 0 < b) :
    -(q : Int) / b = -((q + (b - 1)) / b : Nat) := by
  have low := Nat.div_mul_le_self (q + (b - 1)) b
  have high := Nat.lt_mul_div_succ (q + (b - 1)) pos
  rw [Nat.mul_succ] at high
  rw [Nat.mul_comm] at low
  generalize (q + (b - 1)) / b = c at low high
  have rest : -(q : Int) = ((b * c - q : Nat) : Int) + b * -(c : Int) := by
    rw [Int.mul_neg, ← Int.natCast_mul]
    omega
  exact ((Int.ediv_emod_unique (by omega)).mpr ⟨rest.symm, by omega, by omega⟩).1

theorem nearest_add_halfOne_lt (p : Magnitude) : nearest (p.units + halfOne) 1 < limit := by
  rcases Nat.lt_or_ge p.units (2 ^ 53 * one) with small | large
  · have twice := two_mul_halfOne
    have holds : Holds (2 ^ 54 * one) := holds_mul_one (by decide)
    exact Nat.lt_of_le_of_lt (nearest_le Nat.one_pos holds.2 (by omega)) holds.1
  · rw [(nearest_halfOne large).1]
    exact p.holds.1

theorem sum_natCast (n : Nat) : sum false n = Binary64.round false n 1 := by
  rw [sum, Int.natAbs_natCast]
  congr 1
  simp

theorem sum_neg_natCast {n : Nat} (pos : 0 < n) :
    sum false (-(n : Int)) = Binary64.round true n 1 := by
  have below : -(n : Int) < 0 := by omega
  have some : -(n : Int) ≠ 0 := by omega
  rw [sum, if_neg some, decide_eq_true below, Int.natAbs_neg, Int.natAbs_natCast]

theorem floor_round {negative : Bool} {num : Nat} (finite : nearest num 1 < limit) :
    (Binary64.round negative num 1).floor? =
      some (if negative then -(((nearest num 1 + (one - 1)) / one : Nat) : Int)
        else ((nearest num 1 / one : Nat) : Int)) := by
  rw [Binary64.round, dif_pos finite, floor?, signed]
  cases negative with
  | false => rw [if_neg Bool.false_ne_true, if_neg Bool.false_ne_true, Int.natCast_ediv]
  | true => rw [if_pos rfl, if_pos rfl, neg_ediv_eq _ Binary64.one_pos]

/-- The steps of a scaled number, as a whole number with its sign. -/
theorem floor_add_half (s : Bool) (p : Magnitude) :
    (finite s p + half).floor? =
      some (if s then -(steps s p.units : Int) else (steps s p.units : Int)) := by
  have unit := Binary64.one_pos
  have twice := two_mul_halfOne
  rw [half_eq, add_finite, Bool.and_false]
  cases s with
  | false =>
    have whole : signed false p + signed false ⟨halfOne, holds_halfOne⟩ =
        ((p.units + halfOne : Nat) : Int) := by
      simp only [signed, Bool.false_eq_true, if_false]
      omega
    rw [whole, sum_natCast, floor_round (nearest_add_halfOne_lt p), steps]
    simp only [Bool.false_eq_true, if_false]
  | true =>
    have whole : signed true p + signed false ⟨halfOne, holds_halfOne⟩ =
        -(p.units : Int) + (halfOne : Int) := by
      simp only [signed, Bool.false_eq_true, if_true, if_false]
    rw [whole, steps, if_pos rfl, if_pos rfl]
    rcases Nat.lt_or_ge halfOne p.units with large | small
    · have less : -(p.units : Int) + (halfOne : Int) = -((p.units - halfOne : Nat) : Int) := by
        omega
      have low : nearest (p.units - halfOne) 1 ≤ p.units :=
        nearest_le Nat.one_pos p.holds.2 (by omega)
      have finite := Nat.lt_of_le_of_lt low p.holds.1
      rw [less, sum_neg_natCast (Nat.sub_pos_of_lt large), floor_round finite, if_pos rfl]
    · -- up to half nothing is left of the number
      have less : -(p.units : Int) + (halfOne : Int) = ((halfOne - p.units : Nat) : Int) := by
        omega
      have low : nearest (halfOne - p.units) 1 ≤ halfOne :=
        nearest_le Nat.one_pos holds_halfOne.2 (by omega)
      have finite := Nat.lt_of_le_of_lt low holds_halfOne.1
      have none : nearest (halfOne - p.units) 1 / one = 0 := Nat.div_eq_of_lt (by omega)
      have none' : nearest (p.units - halfOne) 1 = 0 := by
        rw [Nat.sub_eq_zero_of_le small, nearest_eq (Nat.dvd_zero _)]
      have last : (one - 1) / one = 0 := Nat.div_eq_of_lt (by omega)
      rw [less, sum_natCast, floor_round finite, none, none', Nat.zero_add, last,
        if_neg Bool.false_ne_true, Int.natCast_zero, Int.neg_zero]

/-- As many steps are a double. -/
theorem holds_steps (s : Bool) (p : Magnitude) : Holds (steps s p.units * one) := by
  rcases Nat.lt_or_ge p.units (2 ^ 53 * one) with small | large
  · have unit := Binary64.one_pos
    have edge := (nearest_halfOne (p := ⟨2 ^ 53 * one, holds_whole (Nat.le_refl _)⟩)
      (Nat.le_refl _)).1
    dsimp only at edge
    apply holds_whole
    apply Nat.le_of_lt_succ
    unfold steps
    split
    · have less : nearest (p.units - halfOne) 1 ≤ p.units :=
        nearest_le Nat.one_pos p.holds.2 (by omega)
      rw [Nat.div_lt_iff_lt_mul unit, Nat.succ_mul]
      omega
    · have less : nearest (p.units + halfOne) 1 ≤ 2 ^ 53 * one := by
        rw [← edge]
        exact nearest_mono Nat.one_pos (Nat.add_le_add_right (Nat.le_of_lt small) _)
      rw [Nat.div_lt_iff_lt_mul unit, Nat.succ_mul]
      omega
  · rw [steps_mul_of_le s large]
    exact p.holds

theorem ofInt_signed (s : Bool) {z : Nat} (holds : Holds (z * one)) :
    ofInt (if s then -(z : Int) else (z : Int)) = .finite (s && z != 0) ⟨z * one, holds⟩ := by
  cases s with
  | false =>
    have sign : decide ((z : Int) < 0) = false := decide_eq_false (by omega)
    rw [if_neg Bool.false_ne_true, ofInt, Int.natAbs_natCast, round_eq holds, sign, Bool.false_and]
  | true =>
    have sign : decide (-(z : Int) < 0) = (z != 0) := by
      rw [Bool.eq_iff_iff, decide_eq_true_eq, bne_iff_ne]
      omega
    rw [if_pos rfl, ofInt, Int.natAbs_neg, Int.natAbs_natCast, round_eq holds, sign, Bool.true_and]

/-- **What is left of rounding to places.** -/
theorem rounded_finite {d : Fin 16} (s : Bool) {m p : Magnitude}
    (scaled : nearest (m.units * 10 ^ d.val) 1 = p.units) :
    ∃ k : Magnitude, rounded d (.finite s m) = .ok (.finite (s && steps s p.units != 0) k) ∧
      k.units = nearest (steps s p.units * one) (10 ^ d.val) := by
  have unit := Binary64.one_pos
  obtain ⟨n, power, units⟩ := scale_eq d
  have some : n.units ≠ 0 := by
    rw [units]
    exact Nat.ne_of_gt (Nat.mul_pos (Nat.pow_pos (by decide)) unit)
  have product : finite s m * finite false n = finite s p := by
    rw [mul_finite, Bool.bne_false, units, ← Nat.mul_assoc]
    apply round_of_nearest
    rw [← scaled, nearest_mul_cancel _ unit]
  have quotient : nearest (steps s p.units * one * one) n.units =
      nearest (steps s p.units * one) (10 ^ d.val) := by
    rw [units, nearest_mul_mul _ _ unit]
  have low : nearest (steps s p.units * one) (10 ^ d.val) ≤ steps s p.units * one :=
    nearest_le (Nat.pow_pos (by decide)) (holds_steps s p).2
      (Nat.le_mul_of_pos_right _ (Nat.pow_pos (by decide)))
  let k : Magnitude := ⟨nearest (steps s p.units * one) (10 ^ d.val),
    Nat.lt_of_le_of_lt low (holds_steps s p).1, spacing_dvd_nearest _ _⟩
  refine ⟨k, ?_, rfl⟩
  have zero : (finite false n).isZero = false := by simp [isZero, some]
  unfold rounded
  rw [power]
  simp only [bind, Except.bind, product, floor_add_half, zero, Bool.false_eq_true, if_false,
    ofInt_signed s (holds_steps s p)]
  rw [div_finite _ _ _ some, Bool.bne_false, round_of_nearest (m := k) _ quotient]

/-- A number too large to scale has no places. -/
theorem rounded_past {d : Fin 16} (s : Bool) {m : Magnitude}
    (past : limit ≤ nearest (m.units * 10 ^ d.val) 1) :
    rounded d (.finite s m) = .ok (.finite s m) := by
  obtain ⟨n, power, units⟩ := scale_eq d
  have product : finite s m * finite false n = infinity s := by
    have scaled : nearest (m.units * n.units) one = nearest (m.units * 10 ^ d.val) 1 := by
      rw [units, ← Nat.mul_assoc, nearest_mul_cancel _ Binary64.one_pos]
    rw [mul_finite, Bool.bne_false, Binary64.round, dif_neg]
    rw [scaled]
    exact Nat.not_lt.mpr past
  have sum : (infinity s + half).floor? = none := by
    rw [half_eq]
    cases s <;> rfl
  unfold rounded
  rw [power]
  simp only [bind, Except.bind, product, sum]

end DeskCalculator.Display
