import DeskCalculator.Proofs.Nearest
import DeskCalculator.Proofs.ReadBack

/-!
# The plain form of a number reads as that number

The shortest decimal lies among the reals that round to its double, so whoever
rounds it gets the double again. `Within` says which reals those are, and
`nearest_of_within` that rounding takes all of them to the double, from a narrow
gap below a power of two as well as from a tie. With that the plain form reads
back, apart from the sign of a zero, which it leaves out: `read?_plain`. The
display does not tell that sign either: `format_unsignZero`.
-/

namespace DeskCalculator.Number

/-- Halfway to an even number or past it rounding does not stay below. -/
theorem le_halfEven_of_even {num den k : Nat} (pos : 0 < den) (even : k % 2 = 0)
    (h : 2 * (k * den) ≤ 2 * num + den) : k ≤ halfEven num den := by
  have split := Nat.div_add_mod num den
  rcases Nat.lt_or_ge (num / den) k with below | reached
  · have next : den * (num / den) + den ≤ k * den := by
      rw [Nat.mul_comm k, ← Nat.mul_succ]
      exact Nat.mul_le_mul_left _ below
    have near : k * den < den * (num / den) + 2 * den := by
      have := Nat.mod_lt num pos
      omega
    have here : k = num / den + 1 := by
      have := Nat.lt_of_mul_lt_mul_left (a := den) (b := k) (c := num / den + 2)
        (by rw [Nat.mul_comm, Nat.mul_add, Nat.mul_comm den 2]; exact near)
      omega
    have rest : den ≤ 2 * (num % den) := by omega
    unfold halfEven
    rw [if_neg (by omega)]
    split
    · omega
    · omega
  · exact Nat.le_trans reached (div_le_halfEven num den)

/-- Less than half a step above a number rounding does not leave it. -/
theorem halfEven_le_of_lt {num den k : Nat} (pos : 0 < den)
    (h : 2 * num < (2 * k + 1) * den) : halfEven num den ≤ k := by
  have near := (halfEven_error num pos).1
  apply Nat.le_of_lt_succ
  apply Nat.lt_of_mul_lt_mul_right (a := den)
  rw [Nat.add_mul, Nat.mul_assoc, Nat.one_mul] at h
  rw [Nat.succ_mul]
  omega

theorem log2_pred_of_power {u : Nat} (power : u = 2 ^ u.log2) (above : 0 < u.log2) :
    (u - 1).log2 = u.log2 - 1 := by
  have half : 2 ^ u.log2 = 2 * 2 ^ (u.log2 - 1) := by
    rw [← Nat.pow_succ']
    congr 1
    omega
  have some := Nat.two_pow_pos (u.log2 - 1)
  rw [Nat.log2_eq_iff (by omega), Nat.sub_add_cancel above]
  omega

theorem log2_pred {u : Nat} (pos : 0 < u) (between : u ≠ 2 ^ u.log2) :
    (u - 1).log2 = u.log2 := by
  have low := Nat.log2_self_le (Nat.ne_of_gt pos)
  have high := Nat.lt_log2_self (n := u)
  have some := Nat.two_pow_pos u.log2
  rw [Nat.log2_eq_iff (by omega)]
  omega

/-- The gap below a double is the spacing of what lies in it. -/
theorem lowEnd_eq {u : Nat} (pos : 0 < u) : lowEnd u = 4 * u - 2 * spacing (u - 1) := by
  unfold lowEnd
  split
  · rename_i edge
    obtain ⟨power, wide⟩ := edge
    have exponent : 52 < u.log2 := by
      apply Nat.lt_of_not_le
      intro small
      rw [spacing, Nat.sub_eq_zero_of_le small] at wide
      exact absurd wide (by decide)
    have gap : spacing u = 2 * spacing (u - 1) := by
      rw [spacing, spacing, log2_pred_of_power power (by omega), ← Nat.pow_succ']
      congr 1
      omega
    rw [gap]
  · rename_i edge
    have gap : spacing (u - 1) = spacing u := by
      by_cases power : u = 2 ^ u.log2
      · have unit : spacing u = 1 := by
          have := Nat.two_pow_pos (u.log2 - 52)
          have := fun wide => edge ⟨power, wide⟩
          unfold spacing at *
          omega
        have part := spacing_dvd_spacing (Nat.sub_le u 1)
        rw [unit] at part ⊢
        exact Nat.dvd_one.mp part
      · rw [spacing, log2_pred pos power, spacing]
    rw [gap]

/-- Up to the next double the spacing stays. -/
theorem spacing_eq_above {u q : Nat} (holds : spacing u ∣ u) (low : u ≤ q)
    (high : q < u + spacing u) : spacing q = spacing u := by
  apply Eq.symm
  apply Classical.byContradiction
  intro other
  obtain ⟨below, reached⟩ := lt_two_pow_log2 low other
  have grid : spacing u ∣ 2 ^ q.log2 :=
    Nat.dvd_trans (spacing_dvd_spacing low) (Nat.pow_dvd_pow 2 (Nat.sub_le _ _))
  have step := Nat.le_of_dvd (Nat.sub_pos_of_lt below) (Nat.dvd_sub grid holds)
  omega

/-- Down to the double before the spacing stays. -/
theorem spacing_eq_below {u q : Nat} (holds : spacing u ∣ u) (high : q < u)
    (low : u ≤ q + spacing (u - 1)) : spacing q = spacing (u - 1) := by
  apply Classical.byContradiction
  intro other
  obtain ⟨below, reached⟩ := lt_two_pow_log2 (Nat.le_sub_one_of_lt high) other
  have grid : spacing (u - 1) ∣ 2 ^ (u - 1).log2 := Nat.pow_dvd_pow 2 (Nat.sub_le _ _)
  have above : spacing (u - 1) ∣ u := Nat.dvd_trans (spacing_dvd_spacing (Nat.sub_le u 1)) holds
  have step := Nat.le_of_dvd (Nat.sub_pos_of_lt (by omega)) (Nat.dvd_sub above grid)
  omega

/-- The reals num / den that round to u units; the two ends, which lie halfway to a
neighbour, do so iff the significand is even. -/
def Within (u num den : Nat) : Prop :=
  if u / spacing u % 2 = 0 then lowEnd u * den ≤ 4 * num ∧ 4 * num ≤ highEnd u * den
  else lowEnd u * den < 4 * num ∧ 4 * num < highEnd u * den

theorem roundsTo_iff {u p : Nat} : roundsTo u p = true ↔ Within u p five := by
  unfold roundsTo Within
  split
  · rw [Bool.and_eq_true, decide_eq_true_eq, decide_eq_true_eq]
  · rw [Bool.and_eq_true, decide_eq_true_eq, decide_eq_true_eq]

/-- Equal quotients lie between the same ends. -/
theorem Within.congr {u a b c d : Nat} (h : Within u a b) (left : 0 < b) (right : 0 < d)
    (same : a * d = c * b) : Within u c d := by
  have scaled : 4 * c * b = 4 * a * d := by rw [Nat.mul_assoc, ← same, Nat.mul_assoc]
  have upper (x : Nat) : 4 * c ≤ x * d ↔ 4 * a ≤ x * b := by
    rw [← Nat.mul_le_mul_right_iff left, scaled, Nat.mul_right_comm x,
      Nat.mul_le_mul_right_iff right]
  have lower (x : Nat) : x * d ≤ 4 * c ↔ x * b ≤ 4 * a := by
    rw [← Nat.mul_le_mul_right_iff left, scaled, Nat.mul_right_comm x,
      Nat.mul_le_mul_right_iff right]
  unfold Within at h ⊢
  split at h
  · rw [if_pos ‹_›, upper, lower]
    exact h
  · rw [if_neg ‹_›, ← Nat.not_le, ← Nat.not_le, upper, lower, Nat.not_le, Nat.not_le]
    exact h

theorem Within.le {u num den : Nat} (h : Within u num den) :
    lowEnd u * den ≤ 4 * num ∧ 4 * num ≤ highEnd u * den := by
  unfold Within at h
  split at h
  · exact h
  · exact ⟨Nat.le_of_lt h.1, Nat.le_of_lt h.2⟩

theorem nearest_le_of_within {u num den : Nat} (pos : 0 < den) (holds : spacing u ∣ u)
    (h : Within u num den) (above : u * den ≤ num) : nearest num den ≤ u := by
  have step : 0 < spacing u := Nat.two_pow_pos _
  obtain ⟨k, hk⟩ := id holds
  have reached : u ≤ num / den := (Nat.le_div_iff_mul_le pos).mpr above
  have close : num / den < u + spacing u := by
    rw [Nat.div_lt_iff_lt_mul pos]
    have top := h.le.2
    have some := Nat.mul_pos step pos
    unfold highEnd at top
    rw [Nat.add_mul, Nat.mul_assoc, Nat.mul_assoc] at top
    rw [Nat.add_mul]
    omega
  have digits : halfEven num (den * spacing u) ≤ k := by
    have scaled : highEnd u * den = 2 * ((2 * k + 1) * (den * spacing u)) := by
      have whole : highEnd u = 2 * ((2 * k + 1) * spacing u) := by
        rw [highEnd, Nat.add_mul, Nat.mul_assoc, Nat.mul_comm k, ← hk]
        omega
      rw [whole]
      ac_rfl
    have count : u / spacing u = k := Nat.div_eq_of_eq_mul_right step hk
    unfold Within at h
    rw [scaled] at h
    split at h
    · rename_i even
      rw [count] at even
      exact halfEven_le_of_even (Nat.mul_pos pos step) even (by omega)
    · exact halfEven_le_of_lt (Nat.mul_pos pos step) (by omega)
  rw [nearest, spacing_eq_above holds reached close]
  calc _ ≤ k * spacing u := Nat.mul_le_mul_right _ digits
    _ = u := by rw [Nat.mul_comm]; exact hk.symm

theorem lowEnd_mul {u : Nat} (pos : 0 < u) (holds : spacing u ∣ u) (den : Nat) :
    lowEnd u * den + 2 * (den * spacing (u - 1)) = 4 * (u * den) := by
  have wide : 2 * spacing (u - 1) ≤ 4 * u := by
    have part := Nat.dvd_trans (spacing_dvd_spacing (Nat.sub_le u 1)) holds
    have := Nat.le_of_dvd pos part
    omega
  have twice : 2 * (den * spacing (u - 1)) = 2 * spacing (u - 1) * den := by ac_rfl
  rw [twice, ← Nat.add_mul, lowEnd_eq pos, Nat.sub_add_cancel wide, Nat.mul_assoc]

/-- What rounds to a double lies less than a step below it. -/
theorem Within.reaches {u num den : Nat} (h : Within u num den) (some : 0 < u)
    (holds : spacing u ∣ u) (pos : 0 < den) : u ≤ num / den + spacing (u - 1) := by
  apply Nat.le_of_not_lt
  intro far
  have apart : (num / den + spacing (u - 1) + 1) * den ≤ u * den := Nat.mul_le_mul_right den far
  have last := Nat.lt_mul_div_succ num pos
  have low := h.le.1
  have ends := lowEnd_mul some holds den
  have gap : 0 < den * spacing (u - 1) := Nat.mul_pos pos (Nat.two_pow_pos _)
  have spread : (num / den + spacing (u - 1) + 1) * den =
      den * (num / den + 1) + den * spacing (u - 1) := by
    rw [Nat.add_right_comm, Nat.add_mul, Nat.mul_comm, Nat.mul_comm (spacing _)]
  omega

theorem le_nearest_of_within {u num den : Nat} (some : 0 < u) (pos : 0 < den)
    (holds : spacing u ∣ u) (h : Within u num den) (below : num < u * den) :
    u ≤ nearest num den := by
  have step : 0 < spacing (u - 1) := Nat.two_pow_pos _
  obtain ⟨k, hk⟩ := id holds
  obtain ⟨r, hr⟩ := spacing_dvd_spacing (Nat.sub_le u 1)
  have grid : u = r * k * spacing (u - 1) := by
    rw [Nat.mul_comm, ← Nat.mul_assoc, ← hr]
    exact hk
  have less : num / den < u := (Nat.div_lt_iff_lt_mul pos).mpr below
  have units : u * den = r * k * (den * spacing (u - 1)) := by
    rw [← Nat.mul_assoc, Nat.mul_right_comm, ← grid]
  have ends := lowEnd_mul some holds den
  have digits : r * k ≤ halfEven num (den * spacing (u - 1)) := by
    have unit := Nat.mul_pos pos step
    have count : u / spacing u = k := Nat.div_eq_of_eq_mul_right (Nat.two_pow_pos _) hk
    unfold Within at h
    rw [count] at h
    split at h
    · rename_i even
      exact le_halfEven_of_even unit (by simp [Nat.mul_mod, even]) (by omega)
    · rcases Nat.eq_zero_or_eq_succ_pred (r * k) with none | next
      · rw [none]
        exact Nat.zero_le _
      · rw [next] at units ⊢
        apply lt_halfEven unit
        rw [Nat.succ_mul] at units
        rw [Nat.add_mul, Nat.mul_assoc, Nat.one_mul]
        omega
  rw [nearest, spacing_eq_below holds less (h.reaches some holds pos)]
  calc u = r * k * spacing (u - 1) := grid
    _ ≤ _ := Nat.mul_le_mul_right _ digits

/-- **What lies between its ends rounds to a double.** -/
theorem nearest_of_within {u num den : Nat} (some : 0 < u) (pos : 0 < den)
    (holds : spacing u ∣ u) (h : Within u num den) : nearest num den = u := by
  rcases Nat.lt_or_ge num (u * den) with below | above
  · exact Nat.le_antisymm (nearest_le pos holds (Nat.le_of_lt below))
      (le_nearest_of_within some pos holds h below)
  · exact Nat.le_antisymm (nearest_le_of_within pos holds h above) (le_nearest pos holds above)

/-- A decimal with the power of ten on the side where it is whole. -/
theorem mul_pow_toNat (c n k : Nat) :
    c * 10 ^ (n - k : Int).toNat * 10 ^ k = c * 10 ^ n * 10 ^ (-(n - k : Int)).toNat := by
  have sum : (n - k : Int).toNat + k = n + (-(n - k : Int)).toNat := by omega
  rw [Nat.mul_assoc, Nat.mul_assoc, ← Nat.pow_add, ← Nat.pow_add, sum]

theorem one_mul_five : Binary64.one * five = 10 ^ 1074 := by
  unfold five Binary64.one
  generalize 1074 = k
  rw [← Nat.mul_pow]

theorem one_mul_five_eq {t k : Nat} (h : t + k = 1074) :
    Binary64.one * five = 10 ^ t * 10 ^ k := by
  rw [← Nat.pow_add, h, one_mul_five]

/-- The shortest decimal as the quotient that reading makes of it. -/
theorem coarsest_within {u c n : Nat} (some : 0 < u) (top : Nat) (h : coarsest u top = (c, n)) :
    Within u (c * 10 ^ (n - 1074 : Int).toNat * Binary64.one) (10 ^ (-(n - 1074 : Int)).toNat) := by
  have rounds := roundsTo_iff.mp (roundsTo_coarsest some top)
  rw [h] at rounds
  refine rounds.congr five_pos (Nat.pow_pos (by decide)) ?_
  rw [Nat.mul_assoc _ Binary64.one, one_mul_five]
  exact (mul_pow_toNat c n 1074).symm

/-- **The shortest decimal rounds back** to the double it was made for. -/
theorem magnitude_shortest (negative s : Bool) (m : Magnitude) :
    Decimal.magnitude negative
      ((shortest s m).coefficient * 10 ^ (shortest s m).exponent.toNat)
      (0 - ((-(shortest s m).exponent).toNat : Int)) = .finite negative m := by
  unfold shortest
  split
  · rename_i zero
    have same : m = .zero := by
      cases m
      cases zero
      rfl
    simp [Decimal.magnitude, same]
  · rename_i some
    generalize found : coarsest m.units (topGrid m.units) = point
    obtain ⟨c, n⟩ := point
    have positive := Nat.pos_of_ne_zero some
    have within := coarsest_within positive _ found
    have power : 0 < 10 ^ (-(n - 1074 : Int)).toNat := Nat.pow_pos (by decide)
    have read := Decimal.magnitude_eq negative (c * 10 ^ (n - 1074 : Int).toNat) 0
      (-(n - 1074 : Int)).toNat
    rw [Nat.pow_zero, Nat.mul_one] at read
    exact read.trans (Binary64.round_of_nearest negative
      (nearest_of_within positive power m.holds.2 within))

end DeskCalculator.Number

namespace DeskCalculator.Numeral
open Number

/-- Positional form reads as the decimal it was written for, with the sign in front. -/
theorem read?_positional (negative : Bool) (d : Decimal) :
    read? (.ofList (sign negative ++ positional d)) =
      some (Decimal.magnitude negative (d.coefficient * 10 ^ d.exponent.toNat)
        (0 - ((-d.exponent).toNat : Int))) := by
  have clean : ∀ c ∈ [], isClean c = true := by simp
  unfold positional
  split
  · have none : (-d.exponent).toNat = 0 := by omega
    have filled : digits d.coefficient ++ List.replicate d.exponent.toNat '0' ≠ [] := by
      simp [digits_ne_nil]
    have read := read?_whole filled (digits_zeros_isDigit _ _) clean rfl negative
    rw [List.append_nil, natOf_append, natOf_digits, natOf_zeros, List.length_replicate,
      Nat.add_zero] at read
    rw [read, none]
    rfl
  · have none : d.exponent.toNat = 0 := by omega
    obtain ⟨whole, behind, parts, some, front, back, count, all⟩ :=
      pointed_parts (-d.exponent).toNat (digits_isDigit d.coefficient)
    have read := read?_pointed some front back clean rfl negative
    rw [List.append_nil, all, natOf_padded, natOf_digits, count] at read
    rw [parts, read, none, Nat.pow_zero, Nat.mul_one]
    rfl

end DeskCalculator.Numeral

namespace DeskCalculator.Number.Binary64

/-- A zero without its sign; all else as it is. -/
def unsignZero : Binary64 → Binary64
  | .finite s m => .finite (s && m.units != 0) m
  | x => x

@[simp]
theorem isFinite_unsignZero (x : Binary64) : x.unsignZero.isFinite = x.isFinite := by
  cases x <;> rfl

@[simp]
theorem isZero_unsignZero (x : Binary64) : x.unsignZero.isZero = x.isZero := by
  cases x <;> rfl

@[simp]
theorem isNan_unsignZero (x : Binary64) : x.unsignZero.isNan = x.isNan := by
  cases x <;> rfl

theorem unsignZero_eq_or (x : Binary64) :
    x.unsignZero = x ∨ ∃ s, x = .finite s .zero ∧ x.unsignZero = .finite false .zero := by
  cases x with
  | nan => exact .inl rfl
  | infinity s => exact .inl rfl
  | finite s m =>
    obtain ⟨units, holds⟩ := m
    by_cases zero : units = 0
    · subst zero
      exact .inr ⟨s, rfl, by simp [unsignZero, Magnitude.zero]⟩
    · exact .inl (by simp [unsignZero, zero])

theorem add_finite (s t : Bool) (m n : Magnitude) :
    finite s m + finite t n = sum (s && t) (signed s m + signed t n) := by
  change add _ _ = _
  rw [add]

theorem mul_finite (s t : Bool) (m n : Magnitude) :
    finite s m * finite t n = round (s != t) (m.units * n.units) one := by
  change mul _ _ = _
  rw [mul]

theorem div_finite (s t : Bool) (m : Magnitude) {n : Magnitude} (some : n.units ≠ 0) :
    finite s m / finite t n = round (s != t) (m.units * one) n.units := by
  change div _ _ = _
  rw [div, if_neg some]

theorem zero_mul (s t : Bool) (n : Magnitude) :
    finite s .zero * finite t n = finite (s != t) .zero := by
  rw [mul_finite, Magnitude.zero, Nat.zero_mul]
  exact round_zero _ _

end DeskCalculator.Number.Binary64

namespace DeskCalculator.Numeral
open Number

/-- **The plain form reads back** as the number, without the sign of a zero. -/
theorem read?_plain (x : Binary64) : read? (plain x) = some x.unsignZero := by
  cases x with
  | nan => decide
  | infinity s => cases s <;> decide
  | finite s m =>
    rw [plain, read?_positional, magnitude_shortest]
    rfl

theorem value_plain {y : Binary64} (finite : y.isFinite = true) :
    Numeral.value ⟨plain y, accepts_plain finite⟩ = y.unsignZero := by
  rw [Numeral.value, read?_plain, Option.getD_some]

end DeskCalculator.Numeral

namespace DeskCalculator.Display
open Number Numeral

theorem scale_isFinite {digits : Int} {x : Binary64} (h : scale digits = .ok x) :
    x.isFinite = true := by
  unfold scale at h
  split at h
  · cases h
  · split at h
    · cases h
    · rename_i finite
      cases h
      simpa using finite

/-- A zero is gone once half is added to it, and its sign with it. -/
theorem zero_mul_add_half (s : Bool) {x : Binary64} (h : x.isFinite = true) :
    Binary64.finite s .zero * x + half = half := by
  cases x with
  | nan => cases h
  | infinity t => cases h
  | finite t n =>
    rw [Binary64.zero_mul]
    cases s != t <;> decide +kernel

theorem rounded_zero (digits : Int) (s : Bool) :
    rounded digits (.finite s .zero) = rounded digits (.finite false .zero) := by
  have floor : half.floor? = some 0 := by decide +kernel
  unfold rounded
  cases scaled : scale digits with
  | error f => rfl
  | ok x =>
    have finite := scale_isFinite scaled
    simp only [bind, Except.bind, zero_mul_add_half _ finite, floor]

/-- **The display does not tell the sign of a zero.** -/
theorem format_unsignZero (p : Params) (x : Binary64) :
    format p (some x.unsignZero) = format p (some x) := by
  rcases x.unsignZero_eq_or with same | ⟨s, zero, plain⟩
  · rw [same]
  · rw [plain, zero]
    simp only [format, Binary64.isFinite, rounded_zero p.roundDigits s]

theorem Panel.shown_unsignZero (p : Panel) (x : Binary64) :
    p.shown (some x.unsignZero) = p.shown (some x) := by
  rw [Panel.shown, Panel.shown, format_unsignZero]

end DeskCalculator.Display
