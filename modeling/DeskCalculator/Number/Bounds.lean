import DeskCalculator.Number.Binary64

/-! Rounding keeps what is a double, and does not pass one: what is at most a
double rounds to at most it. -/
namespace DeskCalculator.Number

theorem halfEven_le_of_le_mul {num den k : Nat} (pos : 0 < den) (h : num ≤ k * den) :
    halfEven num den ≤ k := by
  have split := Nat.div_add_mod num den
  rcases Nat.eq_zero_or_pos (num % den) with whole | rest
  · have : num / den ≤ k := Nat.div_le_of_le_mul (by rw [Nat.mul_comm]; exact h)
    simpa [halfEven, whole, pos] using this
  · have : num / den < k := by
      apply Nat.lt_of_mul_lt_mul_left (a := den)
      rw [Nat.mul_comm den k]
      omega
    exact Nat.le_trans (halfEven_le num den) this

theorem spacing_dvd_spacing {a b : Nat} (h : a ≤ b) : spacing a ∣ spacing b := by
  unfold spacing
  apply Nat.pow_dvd_pow
  rcases Nat.eq_zero_or_pos a with rfl | pos
  · simp
  · have := (Nat.le_log2 (by omega : b ≠ 0)).2
      (Nat.le_trans (Nat.log2_self_le (by omega : a ≠ 0)) h)
    omega

theorem nearest_le {num den m : Nat} (pos : 0 < den) (holds : spacing m ∣ m)
    (h : num ≤ m * den) : nearest num den ≤ m := by
  have below : num / den ≤ m := Nat.div_le_of_le_mul (by rw [Nat.mul_comm]; exact h)
  obtain ⟨k, hk⟩ := Nat.dvd_trans (spacing_dvd_spacing below) holds
  have step : 0 < spacing (num / den) := Nat.two_pow_pos _
  have : halfEven num (den * spacing (num / den)) ≤ k := by
    apply halfEven_le_of_le_mul (Nat.mul_pos pos step)
    calc num ≤ m * den := h
      _ = k * (den * spacing (num / den)) := by
        rw [hk, Nat.mul_comm (spacing _) k, Nat.mul_assoc, Nat.mul_comm (spacing _) den]
  rw [nearest, hk, Nat.mul_comm _ k]
  exact Nat.mul_le_mul_right _ this

theorem nearest_eq {m : Nat} (holds : spacing m ∣ m) : nearest m 1 = m := by
  have step : 0 < spacing m := Nat.two_pow_pos _
  have whole : halfEven m (spacing m) = m / spacing m := by
    simp [halfEven, Nat.mod_eq_zero_of_dvd holds, step]
  rw [nearest, Nat.div_one, Nat.one_mul, whole, Nat.div_mul_cancel holds]

theorem natAbs_ediv_mul_le (u d : Nat) (pos : 0 < d) (s : Bool) :
    ((if s then -(u : Int) else u) / d).natAbs * d ≤ u + d := by
  generalize hz : (if s then -(u : Int) else u) = z
  have low := Int.mul_ediv_self_le (x := z) (k := (d : Int)) (by omega)
  have high := Int.lt_mul_ediv_self_add (x := z) (k := (d : Int)) (by omega)
  subst hz
  generalize (if s then -(u : Int) else u) / (d : Int) = q at *
  have : ((q.natAbs * d : Nat) : Int) ≤ u + d := by
    rcases Int.natAbs_eq q with h | h
    · have : ((q.natAbs * d : Nat) : Int) = d * q := by
        rw [Int.natCast_mul, ← h, Int.mul_comm]
      rw [this]
      cases s <;> simp at * <;> omega
    · have : ((q.natAbs * d : Nat) : Int) = -(d * q) := by
        rw [h, Int.natCast_mul, Int.natAbs_neg, Int.natAbs_natCast, Int.mul_neg, Int.neg_neg,
          Int.mul_comm]
      rw [this]
      cases s <;> simp at * <;> omega
  omega

theorem natAbs_ediv_mul_eq {u d : Nat} (pos : 0 < d) (s : Bool) (dvd : d ∣ u) :
    ((if s then -(u : Int) else u) / d).natAbs * d = u := by
  obtain ⟨k, rfl⟩ := dvd
  have : (d : Int) ≠ 0 := by omega
  cases s
  · simp only [Bool.false_eq_true, ↓reduceIte, Int.natCast_mul]
    rw [Int.mul_ediv_cancel_left _ this, Int.natAbs_natCast, Nat.mul_comm]
  · simp only [↓reduceIte, Int.natCast_mul]
    rw [← Int.mul_neg, Int.mul_ediv_cancel_left _ this, Int.natAbs_neg, Int.natAbs_natCast,
      Nat.mul_comm]

namespace Binary64

theorem round_isFinite {num den : Nat} {m : Nat} (negative : Bool) (pos : 0 < den)
    (holds : Holds m) (h : num ≤ m * den) : (round negative num den).isFinite = true := by
  have := nearest_le pos holds.2 h
  have := holds.1
  rw [round, dif_pos (by omega)]
  rfl

/-- From 2^53 on every double is a whole number. -/
theorem one_dvd {m : Magnitude} (h : 2 ^ 53 * one ≤ m.units) : one ∣ m.units := by
  have : one ∣ spacing (2 ^ 53 * one) := by
    unfold one
    generalize 1074 = k
    rw [← Nat.pow_add, spacing, Nat.log2_two_pow]
    exact Nat.pow_dvd_pow 2 (by omega)
  exact Nat.dvd_trans (Nat.dvd_trans this (spacing_dvd_spacing h)) m.holds.2

theorem one_pos : 0 < one := by
  unfold one
  generalize 1074 = k
  exact Nat.two_pow_pos k

/-- Up to 2^53 every whole number is a double. -/
theorem holds_whole {k : Nat} (h : k ≤ 2 ^ 53) : Holds (k * one) := by
  constructor
  · have top : 2 ^ 53 * one < limit := by decide +kernel
    exact Nat.lt_of_le_of_lt (Nat.mul_le_mul_right one h) top
  · unfold one
    exact spacing_dvd_mul (k := 1074) h

theorem round_eq {negative : Bool} {m : Nat} (holds : Holds m) :
    round negative m 1 = .finite negative ⟨m, holds⟩ := by
  have same := nearest_eq holds.2
  simp only [round, same, holds.1, ↓reduceDIte]

theorem ofInt_natCast {k : Nat} (h : k ≤ 2 ^ 53) :
    ofInt k = .finite false ⟨k * one, holds_whole h⟩ := by
  rw [ofInt, Int.natAbs_natCast, round_eq (holds_whole h)]
  simp

theorem ofInt_isFinite {n : Int} {m : Nat} (holds : Holds m) (h : n.natAbs * one ≤ m) :
    (ofInt n).isFinite = true := by
  apply round_isFinite _ (by decide) holds
  simpa using h

/-- The whole part of a finite double is finite as a double. -/
theorem floor_isFinite {x : Binary64} {n : Int} (h : x.floor? = some n) :
    (ofInt n).isFinite = true := by
  rcases x with _ | _ | ⟨s, m⟩ <;> simp only [floor?, Option.some.injEq, reduceCtorEq] at h
  subst h
  have pos := one_pos
  rcases Nat.lt_or_ge m.units (2 ^ 53 * one) with low | high
  · apply ofInt_isFinite (holds_whole (Nat.le_refl _))
    apply Nat.mul_le_mul_right
    apply Nat.le_of_lt_succ
    apply Nat.lt_of_mul_lt_mul_right (a := one)
    apply Nat.lt_of_le_of_lt (natAbs_ediv_mul_le m.units one pos s)
    rw [Nat.succ_mul]
    exact Nat.add_lt_add_right low one
  · apply ofInt_isFinite m.holds
    exact Nat.le_of_eq (natAbs_ediv_mul_eq pos s (one_dvd high))

/-- A quotient by a double that is at least 1 is finite. -/
theorem div_isFinite {x : Binary64} {t : Bool} {n : Magnitude} (hx : x.isFinite = true)
    (hn : one ≤ n.units) : (x / .finite t n).isFinite = true := by
  have pos := one_pos
  rcases x with _ | _ | ⟨s, m⟩ <;> simp only [isFinite, Bool.false_eq_true] at hx
  change (div _ _).isFinite = true
  simp only [div]
  rw [if_neg (by omega)]
  exact round_isFinite _ (by omega) m.holds (Nat.mul_le_mul_left _ hn)

end Binary64
end DeskCalculator.Number
