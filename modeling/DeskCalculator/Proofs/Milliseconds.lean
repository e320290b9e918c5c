import DeskCalculator.Proofs.HalfStep
import DeskCalculator.Proofs.Timestamps

/-!
# Milliseconds there and back

An instant is read off a count of milliseconds by way of a double number of seconds, and
written as one by way of another. Both are the same double (`nearest_nearestMicros`), but a
thousand times it may be nearest to a double below the count, which is then cut off to the
millisecond before: `FallsShort` says of which counts that is true, and `wholeMillis_nearestMicros`
that all others come back. A count has a date in exactly the years 1 to 9999:
`ofEpochMillis_isOk_iff`.
-/

namespace DeskCalculator.Number

/-- What is nearer to a whole number than half a step rounds to it. -/
theorem halfEven_eq_of_near {num den k : Nat} (low : 2 * (k * den) < 2 * num + den)
    (high : 2 * num < 2 * (k * den) + den) : halfEven num den = k := by
  have pos : 0 < den := by omega
  apply Nat.le_antisymm
  · apply halfEven_le_of_lt pos
    rw [Nat.add_mul, Nat.mul_assoc, Nat.one_mul]
    exact high
  · cases k with
    | zero => exact Nat.zero_le _
    | succ k =>
      apply lt_halfEven pos
      rw [Nat.succ_mul k den] at low
      rw [Nat.add_mul, Nat.mul_assoc, Nat.one_mul]
      omega

/-- Between two powers of two doubles are evenly spaced. -/
theorem nearest_of_binade {num den j : Nat} (pos : 0 < den) (low : 2 ^ (52 + j) * den ≤ num)
    (high : num < 2 ^ (53 + j) * den) : nearest num den = halfEven num (den * 2 ^ j) * 2 ^ j := by
  have above : 2 ^ (52 + j) ≤ num / den := (Nat.le_div_iff_mul_le pos).mpr low
  have below : num / den < 2 ^ (52 + j + 1) := by
    rw [Nat.div_lt_iff_lt_mul pos, Nat.add_right_comm]
    exact high
  have some : num / den ≠ 0 := by
    have := Nat.two_pow_pos (52 + j)
    omega
  have exponent := (Nat.log2_eq_iff some).mpr ⟨above, below⟩
  rw [nearest, spacing, exponent, Nat.add_sub_cancel_left]

theorem halfEven_of_rest_lt {num den : Nat} (h : 2 * (num % den) < den) :
    halfEven num den * den + num % den = num := by
  rw [halfEven, if_pos h, Nat.mul_comm]
  exact Nat.div_add_mod num den

theorem le_halfEven_of_lt_rest {num den : Nat} (pos : 0 < den) (h : den < 2 * (num % den)) :
    num ≤ halfEven num den * den := by
  have split := Nat.div_add_mod num den
  have small := Nat.mod_lt num pos
  rw [halfEven, if_neg (by omega), if_pos h, Nat.succ_mul, Nat.mul_comm]
  omega

end DeskCalculator.Number

namespace DeskCalculator.Clock.Instant
open Number

/-- A count of milliseconds that comes back one short. It reaches 1000/1024 of the next power of
two, and with more than 256 and less than 500 thousandths left off its seconds, a thousand times
the rest is nearest to a double below the count. -/
def FallsShort (n : Nat) : Prop :=
  1000 * 2 ^ (n.log2 + 1) ≤ 1024 * n ∧
    256 < n * 2 ^ (61 - n.log2) % 1000 ∧ n * 2 ^ (61 - n.log2) % 1000 < 500

instance : DecidablePred FallsShort := fun _ => inferInstanceAs (Decidable (_ ∧ _ ∧ _))

/-- The seconds in n milliseconds are at least 2^(k - 10), and less than twice that. -/
structure Band (n k : Nat) : Prop where
  low : 1000 * 2 ^ k ≤ 1024 * n
  high : 1024 * n < 2000 * 2 ^ k
  small : k ≤ 48

theorem band_of_lt {n : Nat} (pos : 0 < n) (h : n < 2 ^ 48) : ∃ k, Band n k := by
  have some : 1024 * n / 1000 ≠ 0 := by omega
  have low := Nat.log2_self_le some
  have high := Nat.lt_log2_self (n := 1024 * n / 1000)
  have small : 2 ^ (1024 * n / 1000).log2 < 2 ^ 49 := by omega
  refine ⟨(1024 * n / 1000).log2, ?_, ?_, ?_⟩
  · omega
  · omega
  · have := (Nat.pow_lt_pow_iff_right (by decide : 1 < 2)).mp small
    omega

/-- Distance between the doubles in a band. -/
def grain (k : Nat) : Nat := 2 ^ (1012 + k)

/-- How many of them there are to a second. -/
def grains (k : Nat) : Nat := 2 ^ (62 - k)

theorem grain_pos (k : Nat) : 0 < grain k := Nat.two_pow_pos _

theorem grains_mul_grain {k : Nat} (h : k ≤ 62) : grains k * grain k = Binary64.one := by
  rw [grains, grain]
  exact (Binary64.one_eq (by omega)).symm

theorem grains_mul_pow {k : Nat} (h : k ≤ 62) : grains k * 2 ^ k = 2 ^ 62 := by
  rw [grains, ← Nat.pow_add, Nat.sub_add_cancel h]

/-- Numbers of grains as doubles, which have 2^j of them between them. -/
theorem nearest_grains {count den j : Nat} (k : Nat) (pos : 0 < den)
    (low : 2 ^ (52 + j) * den ≤ count) (high : count < 2 ^ (53 + j) * den) :
    nearest (count * grain k) den = halfEven count (den * 2 ^ j) * (2 ^ j * grain k) := by
  have step : 2 ^ (j + (1012 + k)) = 2 ^ j * grain k := Nat.pow_add ..
  have scale (i : Nat) : 2 ^ (i + (j + (1012 + k))) * den = 2 ^ (i + j) * den * grain k := by
    rw [← Nat.add_assoc, Nat.pow_add, Nat.mul_right_comm, grain]
  rw [nearest_of_binade (j := j + (1012 + k)) pos, step, ← Nat.mul_assoc den,
    halfEven_mul_mul _ _ (grain_pos k)]
  · rw [scale]
    exact Nat.mul_le_mul_right _ low
  · rw [scale]
    exact Nat.mul_lt_mul_of_pos_right high (grain_pos k)

/-- How many grains there are in the seconds, as a double has it. -/
def significand (n k : Nat) : Nat := halfEven (n * grains k) 1000

namespace Band

variable {n k : Nat}

theorem counts (h : Band n k) : 1000 * 2 ^ 62 ≤ 1024 * (n * grains k) ∧
    1024 * (n * grains k) < 2000 * 2 ^ 62 := by
  have whole := grains_mul_pow (Nat.le_trans h.small (by decide))
  have pos : 0 < grains k := Nat.two_pow_pos _
  have low := Nat.mul_le_mul_right (grains k) h.low
  have high := Nat.mul_lt_mul_of_pos_right h.high pos
  rw [Nat.mul_assoc, Nat.mul_assoc, Nat.mul_comm (2 ^ k), whole] at low high
  exact ⟨low, high⟩

theorem le_grains (h : Band n k) : 2 ^ 14 ≤ grains k :=
  Nat.pow_le_pow_right (by decide) (Nat.le_sub_of_add_le (Nat.add_le_add_left h.small 14))

theorem significand_near (n k : Nat) :
    2 * (significand n k * 1000) ≤ 2 * (n * grains k) + 1000 ∧
      2 * (n * grains k) ≤ 2 * (significand n k * 1000) + 1000 :=
  halfEven_error _ (by decide)

/-- The end of a band is a whole number of milliseconds, but for the first few. -/
theorem last (h : Band n k) (late : 6 ≤ k) : n * grains k + 2 ^ 14 ≤ 1000 * 2 ^ 53 := by
  have whole := grains_mul_pow (Nat.le_trans h.small (by decide))
  obtain ⟨j, rfl⟩ := Nat.exists_eq_add_of_le late
  have next : n + 1 ≤ 125 * 2 ^ j := by
    have high := h.high
    rw [Nat.pow_add] at high
    omega
  have scaled := Nat.mul_le_mul_right (grains (6 + j)) next
  rw [Nat.pow_add, Nat.mul_comm (2 ^ 6), ← Nat.mul_assoc, Nat.mul_comm (grains _)] at whole
  rw [Nat.mul_assoc, Nat.add_mul, Nat.one_mul] at scaled
  have := h.le_grains
  omega

theorem nearest_seconds (h : Band n k) :
    nearest (n * Binary64.one) 1000 = significand n k * grain k := by
  obtain ⟨low, high⟩ := h.counts
  have unit := grains_mul_grain (Nat.le_trans h.small (by decide))
  rw [← unit, ← Nat.mul_assoc, nearest_grains (j := 0) k (by decide) (by omega) (by omega),
    Nat.pow_zero, Nat.mul_one, Nat.one_mul, significand]

theorem nearestMicros_eq (h : Band n k) :
    nearestMicros n = halfEven (significand n k * 1000000) (grains k) := by
  have unit := grains_mul_grain (Nat.le_trans h.small (by decide))
  rw [nearestMicros, h.nearest_seconds, ← unit, Nat.mul_right_comm,
    halfEven_mul_mul _ _ (grain_pos k)]

/-- Up to 2^33 seconds the grains are so fine that the microseconds are exact. -/
theorem nearestMicros_of_fine (h : Band n k) (fine : k < 43) : nearestMicros n = n * 1000 := by
  have many : 2 ^ 20 ≤ grains k := Nat.pow_le_pow_right (by decide) (by omega)
  obtain ⟨near, near'⟩ := significand_near n k
  rw [h.nearestMicros_eq]
  apply halfEven_eq_of_near
  · rw [Nat.mul_right_comm]
    omega
  · rw [Nat.mul_right_comm]
    omega

theorem le_nearestMicros (h : Band n k) (coarse : 43 ≤ k) :
    2 ^ 52 * 1000000 ≤ nearestMicros n * grains k := by
  have pos : 0 < grains k := Nat.two_pow_pos _
  obtain ⟨low, -⟩ := h.counts
  obtain ⟨-, near⟩ := significand_near n k
  obtain ⟨c, hc⟩ : grains k ∣ 2 ^ 52 := Nat.pow_dvd_pow 2 (by omega)
  have reached : c * 1000000 ≤ nearestMicros n := by
    rw [h.nearestMicros_eq]
    refine Nat.le_trans ?_ (div_le_halfEven _ _)
    rw [Nat.le_div_iff_mul_le pos, Nat.mul_right_comm, Nat.mul_comm c, ← hc]
    omega
  rw [hc, Nat.mul_comm (grains k), Nat.mul_right_comm]
  exact Nat.mul_le_mul_right (grains k) reached

/-- From 2^33 seconds on the microseconds are finer than the grains. -/
theorem nearest_of_coarse (h : Band n k) (coarse : 43 ≤ k) :
    nearest (nearestMicros n * Binary64.one) 1000000 = significand n k * grain k := by
  have unit := grains_mul_grain (Nat.le_trans h.small (by decide))
  have few : grains k ≤ 2 ^ 19 := Nat.pow_le_pow_right (by decide) (by omega)
  have pos : 0 < grains k := Nat.two_pow_pos _
  obtain ⟨near, near'⟩ := significand_near n k
  have high := h.last (Nat.le_trans (by decide) coarse)
  obtain ⟨above, below⟩ := halfEven_error (significand n k * 1000000) pos
  rw [← h.nearestMicros_eq] at above below
  rw [← unit, ← Nat.mul_assoc, nearest_grains (j := 0) k (by decide)
    (h.le_nearestMicros coarse) (by omega), Nat.pow_zero, Nat.mul_one, Nat.one_mul,
    halfEven_eq_of_near (k := significand n k) (by omega) (by omega)]

/-- **The seconds of the instant are those of the count.** -/
theorem nearest_nearestMicros (h : Band n k) :
    nearest (nearestMicros n * Binary64.one) 1000000 = significand n k * grain k := by
  by_cases fine : k < 43
  · rw [h.nearestMicros_of_fine fine, Nat.mul_right_comm,
      nearest_mul_mul _ 1000 (by decide : 0 < 1000), h.nearest_seconds]
  · exact h.nearest_of_coarse (Nat.le_of_not_lt fine)

/-- The milliseconds in the seconds of a band. Their own doubles have 2^j grains between them. -/
theorem millis_eq (h : Band n k) {j : Nat} (fit : j ≤ 10)
    (low : 2 ^ (52 + j) ≤ significand n k * 1000) (high : significand n k * 1000 < 2 ^ (53 + j)) :
    nearest (significand n k * grain k * (1000 * Binary64.one)) Binary64.one / Binary64.one =
      halfEven (significand n k * 1000) (2 ^ j) / 2 ^ (62 - j - k) := by
  have small := h.small
  have pos := grain_pos k
  have unit := grains_mul_grain (k := k) (by omega)
  have split : grains k = 2 ^ (62 - j - k) * 2 ^ j := by
    rw [grains, ← Nat.pow_add]
    congr 1
    omega
  have product (second : Nat) : significand n k * grain k * (1000 * second) =
      significand n k * 1000 * grain k * second := by ac_rfl
  rw [← Nat.mul_one (2 ^ (52 + j))] at low
  rw [← Nat.mul_one (2 ^ (53 + j))] at high
  have rounded := nearest_grains k Nat.one_pos low high
  rw [Nat.one_mul] at rounded
  rw [product, nearest_mul_cancel _ Binary64.one_pos, rounded, ← unit, split, Nat.mul_assoc (2 ^ (62 - j - k)),
    Nat.mul_div_mul_right _ _ (Nat.mul_pos (Nat.two_pow_pos j) pos)]

theorem log2_of_lt (h : Band n k) (under : n < 2 ^ k) : n.log2 + 1 = k := by
  have low := h.low
  cases k with
  | zero => omega
  | succ i =>
    rw [Nat.pow_succ] at low under
    have some := Nat.two_pow_pos i
    congr 1
    rw [Nat.log2_eq_iff (by omega), Nat.pow_succ]
    omega

theorem fallsShort_iff (h : Band n k) (under : n < 2 ^ k) :
    FallsShort n ↔ 256 < n * grains k % 1000 ∧ n * grains k % 1000 < 500 := by
  have exponent : 61 - n.log2 = 62 - k := by
    have := h.log2_of_lt under
    omega
  rw [FallsShort, h.log2_of_lt under, exponent, grains]
  exact and_iff_right h.low

theorem not_fallsShort (h : Band n k) (above : 2 ^ k ≤ n) : ¬ FallsShort n := by
  have high := h.high
  have some := Nat.two_pow_pos k
  have exponent : n.log2 = k := by
    rw [Nat.log2_eq_iff (by omega), Nat.pow_succ]
    omega
  rintro ⟨low, -⟩
  rw [exponent, Nat.pow_succ] at low
  omega

theorem count_eq (n : Nat) {j : Nat} (fit : j + k ≤ 62) :
    n * grains k = n * 2 ^ (62 - j - k) * 2 ^ j := by
  rw [Nat.mul_assoc, ← Nat.pow_add, grains]
  congr 2
  omega

/-- What is left off the seconds of a count that falls short is less than half a grain. -/
theorem significand_of_short (h : Band n k) (under : n < 2 ^ k) (short : FallsShort n) :
    significand n k * 1000 + n * grains k % 1000 = n * grains k := by
  have rest := (h.fallsShort_iff under).mp short
  exact halfEven_of_rest_lt (by omega)

/-- From any other no more is left off than half a double of milliseconds, or nothing. -/
theorem le_significand_of_not_short (h : Band n k) (under : n < 2 ^ k) (kept : ¬ FallsShort n) :
    2 * (n * grains k) ≤ 2 * (significand n k * 1000) + 2 ^ 9 := by
  have small := h.small
  have rest := mt (h.fallsShort_iff under).mpr kept
  -- a number of grains that is a multiple of eight leaves no 500, so that there is no tie
  have count := count_eq n (k := k) (j := 3) (by omega)
  by_cases low : n * grains k % 1000 < 500
  · have places : significand n k * 1000 + n * grains k % 1000 = n * grains k :=
      halfEven_of_rest_lt (by omega)
    omega
  · have places : n * grains k ≤ significand n k * 1000 :=
      le_halfEven_of_lt_rest (by decide) (by omega)
    exact Nat.le_add_right_of_le (Nat.mul_le_mul_left 2 places)

/-- Just under a power of two the thousandfold may be nearer to the double below the count. -/
theorem millis_of_lt (h : Band n k) (under : n < 2 ^ k) :
    nearest (significand n k * grain k * (1000 * Binary64.one)) Binary64.one / Binary64.one =
      if FallsShort n then n - 1 else n := by
  have small := h.small
  have whole := grains_mul_pow (k := k) (by omega)
  obtain ⟨low, -⟩ := h.counts
  obtain ⟨near, near'⟩ := significand_near n k
  have top : n * grains k + grains k ≤ 2 ^ 62 := by
    rw [← whole, ← Nat.succ_mul, Nat.mul_comm]
    exact Nat.mul_le_mul_left _ under
  have wide := h.le_grains
  -- a millisecond is an even number of the doubles around the count
  obtain ⟨v, hv⟩ : ∃ v, 2 ^ (62 - 9 - k) = 2 * v := ⟨2 ^ (52 - k), by
    rw [← Nat.pow_succ']
    congr 1
    omega⟩
  have pos : 0 < 2 * v := hv ▸ Nat.two_pow_pos _
  have count := count_eq n (k := k) (j := 9) (by omega)
  rw [hv] at count
  rw [h.millis_eq (j := 9) (by decide) (by omega) (by omega), hv]
  by_cases short : FallsShort n
  · have some : 0 < n := Nat.pos_of_ne_zero fun none => by
      rw [none] at short
      exact absurd short (by decide)
    have rest := (h.fallsShort_iff under).mp short
    have left := h.significand_of_short under short
    have before : n * (2 * v) - 1 = (n - 1) * (2 * v) + (2 * v - 1) := by
      rw [Nat.sub_mul, Nat.one_mul]
      have := Nat.le_mul_of_pos_left (2 * v) some
      omega
    rw [if_pos short, halfEven_eq_of_near (k := n * (2 * v) - 1) (by omega) (by omega), before,
      Nat.mul_comm, Nat.mul_add_div pos, Nat.div_eq_of_lt (Nat.sub_lt pos Nat.one_pos),
      Nat.add_zero]
  · have left := h.le_significand_of_not_short under short
    rw [count] at left
    have even : n * (2 * v) % 2 = 0 := by rw [Nat.mul_left_comm, Nat.mul_mod_right]
    have above : n * (2 * v) ≤ halfEven (significand n k * 1000) (2 ^ 9) :=
      le_halfEven_of_even (by decide) even left
    have below : halfEven (significand n k * 1000) (2 ^ 9) ≤ n * (2 * v) + 1 :=
      halfEven_le_of_lt (by decide) (by omega)
    rw [if_neg short]
    apply Nat.div_eq_of_lt_le above
    rw [Nat.succ_mul]
    omega

theorem millis_of_ge (h : Band n k) (above : 2 ^ k ≤ n) :
    nearest (significand n k * grain k * (1000 * Binary64.one)) Binary64.one / Binary64.one =
      n := by
  have small := h.small
  have whole := grains_mul_pow (k := k) (by omega)
  obtain ⟨-, high⟩ := h.counts
  obtain ⟨near, near'⟩ := significand_near n k
  have count := count_eq n (k := k) (j := 10) (by omega)
  have reach : 2 ^ 62 ≤ n * grains k := by
    rw [← whole, Nat.mul_comm]
    exact Nat.mul_le_mul_right _ above
  have least : 2 ^ (52 + 10) ≤ significand n k * 1000 := by
    by_cases power : n * grains k = 2 ^ 62
    · rw [significand, power]
      decide
    · omega
  rw [h.millis_eq (j := 10) (Nat.le_refl _) least (by omega),
    halfEven_eq_of_near (k := n * 2 ^ (62 - 10 - k)) (by omega) (by omega)]
  exact Nat.mul_div_cancel _ (Nat.two_pow_pos _)

end Band

/-- **A count of milliseconds comes back, or the one before it.** -/
theorem wholeMillis_nearestMicros {n : Nat} (h : n < 2 ^ 48) :
    wholeMillis (nearestMicros n) = if FallsShort n then n - 1 else n := by
  rcases Nat.eq_zero_or_pos n with rfl | pos
  · decide +kernel
  · obtain ⟨k, band⟩ := band_of_lt pos h
    rw [wholeMillis, band.nearest_nearestMicros]
    rcases Nat.lt_or_ge n (2 ^ k) with under | above
    · exact band.millis_of_lt under
    · rw [if_neg (band.not_fallsShort above)]
      exact band.millis_of_ge above

/-! Counts that have a date -/

theorem ofEpochMillis_cases (ms : Int) : (∃ f, ofEpochMillis ms = .error f) ∨
    ofEpochMillis ms = inYears ⟨withSign ms (nearestMicros ms.natAbs)⟩ := by
  rw [ofEpochMillis, Binary64.ofRatio, Binary64.round]
  split
  · rw [ofQuotient, ofSeconds]
    simp only [decide_eq_true_eq]
    split
    · exact .inl ⟨_, rfl⟩
    · exact .inr rfl
  · exact .inl ⟨_, rfl⟩

theorem dated_of_inYears {t u : Instant} (h : t.inYears = .ok u) : t.Dated := by
  unfold inYears at h
  dsimp only at h
  split at h
  · cases h
  · split at h
    · assumption
    · cases h

theorem nearestMicros_beyond :
    withSign (-62135596800001) (nearestMicros (-62135596800001 : Int).natAbs) <
        -62135596800000000 ∧
      253402300800000000 ≤
        withSign 253402300800000 (nearestMicros (253402300800000 : Int).natAbs) := by
  decide +kernel

/-- **What is read off a count of milliseconds is in the years 1 to 9999 just if the count is.** -/
theorem ofEpochMillis_isOk_iff (ms : Int) :
    (∃ t, ofEpochMillis ms = .ok t) ↔ (ofMillis ms).Dated := by
  refine ⟨?_, fun dated => ⟨_, (ofEpochMillis_of_dated dated).1⟩⟩
  rintro ⟨t, read⟩
  rcases ofEpochMillis_cases ms with ⟨f, failed⟩ | same
  · rw [failed] at read
    cases read
  · rw [same] at read
    have range := (dated_iff _).mp (dated_of_inYears read)
    obtain ⟨bottom, top⟩ := nearestMicros_beyond
    rw [dated_iff]
    unfold ofMillis
    dsimp only at range ⊢
    constructor
    · by_contra before
      have := withSign_mono nearestMicros_mono (y := ms) (z := -62135596800001) (by omega)
      omega
    · by_contra after
      have := withSign_mono nearestMicros_mono (y := 253402300800000) (z := ms) (by omega)
      omega

theorem natAbs_withSign (z : Int) (n : Nat) : (withSign z n).natAbs = n := by
  unfold withSign
  split <;> simp

theorem withSign_withSign {z : Int} {m n : Nat} (h : m = 0 → n = 0) :
    withSign (withSign z m) n = withSign z n := by
  unfold withSign
  split <;> split <;> omega

theorem withSign_pred {z : Int} (some : z ≠ 0) : withSign z (z.natAbs - 1) = z - z.sign := by
  unfold withSign
  rcases Int.lt_or_gt_of_ne some with below | above
  · rw [if_pos below, Int.sign_eq_neg_one_of_neg below]
    omega
  · rw [if_neg (by omega), Int.sign_eq_one_of_pos above]
    omega

/-- **Milliseconds come back but for those that fall short,** which come back one nearer to zero. -/
theorem epochMillis_ofEpochMillis {ms : Int} (dated : (ofMillis ms).Dated) :
    ∃ t, ofEpochMillis ms = .ok t ∧
      t.epochMillis = if FallsShort ms.natAbs then ms - ms.sign else ms := by
  obtain ⟨read, there⟩ := ofEpochMillis_of_dated dated
  refine ⟨_, read, ?_⟩
  have range := (dated_iff _).mp dated
  unfold ofMillis at range
  dsimp only at range
  have back := wholeMillis_nearestMicros (n := ms.natAbs) (by omega)
  have zero : wholeMillis 0 = 0 := by decide +kernel
  rw [epochMillis_eq there.natAbs_le, natAbs_withSign,
    withSign_withSign (fun none => by rw [none, zero]), back]
  split
  · rename_i short
    apply withSign_pred
    rintro rfl
    exact absurd short (by decide)
  · unfold withSign
    split <;> omega

/-- 1001 milliseconds are a double below 1.001 seconds, and those less than 1001 milliseconds. -/
theorem epochMillis_ofEpochMillis_short : (ofMillis 1001).Dated ∧ FallsShort 1001 ∧
    ∃ t, ofEpochMillis 1001 = .ok t ∧ t.epochMillis = 1000 := by
  have dated : (ofMillis 1001).Dated := by decide
  have short : FallsShort 1001 := by decide
  obtain ⟨t, read, back⟩ := epochMillis_ofEpochMillis dated
  exact ⟨dated, short, t, read, back.trans (if_pos short)⟩

theorem not_epochMillis_ofEpochMillis : ¬ ∀ ms : Int, (ofMillis ms).Dated →
    ∃ t, ofEpochMillis ms = .ok t ∧ t.epochMillis = ms := by
  intro always
  obtain ⟨t, read, back⟩ := always 1001 (by decide)
  have exact : ofEpochMillis 1001 = .ok ⟨1001000⟩ := by decide +kernel
  have missed : epochMillis ⟨1001000⟩ = 1000 := by decide +kernel
  cases exact.symm.trans read
  rw [missed] at back
  cases back

end DeskCalculator.Clock.Instant
