import DeskCalculator.Clock.Instant
import DeskCalculator.Proofs.Nearest
import Mathlib.Tactic.Ring

/-!
# Timestamps of instants

A timestamp passes through a double on the way in and on the way out. Each stage keeps
the order (`epochMillis_mono`), so what happens to the years 1 to 9999 shows at their
ends. Only the last 15 microseconds of them are lost: they are rounded up into a year
that has no date (`timely_iff`).
-/

namespace DeskCalculator.Number

theorem Binary64.round_of_le (negative : Bool) {num den m : Nat} (pos : 0 < den)
    (holds : Holds m) (h : num ≤ m * den) :
    ∃ fits, round negative num den = .finite negative ⟨nearest num den, fits⟩ := by
  have below := Nat.lt_of_le_of_lt (nearest_le pos holds.2 h) holds.1
  exact ⟨⟨below, spacing_dvd_nearest num den⟩, dif_pos below⟩

end DeskCalculator.Number

namespace DeskCalculator.Clock

/-- The last of the 400 years of a cycle has the last 366 of its days. -/
theorem Civil.years_in_cycle {r : Nat} (h : r < 146097) :
    let rest := r - min 3 (r / 36524) * 36524
    let years := min 3 (r / 36524) * 100 + rest / 1461 * 4 + min 3 (rest % 1461 / 365)
    years ≤ 399 ∧ (years = 399 ↔ 145731 ≤ r) := by
  intro rest years
  rcases Nat.lt_or_ge r 109572 with early | last
  · have : min 3 (r / 36524) ≤ 2 := by omega
    have : rest < 36524 := by omega
    omega
  · have century : min 3 (r / 36524) = 3 := by omega
    have : rest = r - 109572 := by omega
    have : rest ≤ 36524 := by omega
    omega

theorem Civil.year_ofDays (days : Int) :
    ∃ years : Nat, years ≤ 399 ∧ (years = 399 ↔ 145731 ≤ (days + 719162) % 146097) ∧
      (ofDays days).year = (days + 719162) / 146097 * 400 + years + 1 := by
  have epoch : epochDay = 719162 := by decide
  obtain ⟨few, last⟩ := years_in_cycle
    (r := ((days + 719162) % 146097).toNat) (by omega)
  refine ⟨_, few, last.trans (by omega), ?_⟩
  -- the year is computed before the month and the day in it
  rw [ofDays, epoch]
  generalize locate 1 _ _ = place
  cases place
  push_cast
  ring

namespace Instant
open Number

/-- A date can be written out only in the years 1 to 9999. -/
def Dated (t : Instant) : Prop := 1 ≤ t.date.year ∧ t.date.year ≤ 9999

instance (t : Instant) : Decidable t.Dated := inferInstanceAs (Decidable (_ ∧ _))

/-- So can the millisecond that the instant is logged under. -/
def Timely (t : Instant) : Prop := t.Dated ∧ (ofMillis t.epochMillis).Dated

instance (t : Instant) : Decidable t.Timely := inferInstanceAs (Decidable (_ ∧ _))

theorem dated_iff (t : Instant) :
    t.Dated ↔ -62135596800000000 ≤ t.micros ∧ t.micros < 253402300800000000 := by
  obtain ⟨years, few, last, year⟩ := Civil.year_ofDays (t.micros / dayMicros)
  unfold Dated date
  rw [year]
  unfold dayMicros at *
  omega

theorem inYears_of_dated {t : Instant} (h : t.Dated) : t.inYears = .ok t := by
  obtain ⟨first, last⟩ := h
  unfold inYears
  dsimp only
  rw [if_neg (by omega), if_pos ⟨first, last⟩]

/-- Whole milliseconds in a number of microseconds, as doubles have it. -/
def wholeMillis (n : Nat) : Nat :=
  nearest (nearest (n * Binary64.one) 1000000 * (1000 * Binary64.one)) Binary64.one / Binary64.one

/-- The microseconds back from milliseconds. -/
def nearestMicros (n : Nat) : Nat :=
  halfEven (nearest (n * Binary64.one) 1000 * 1000000) Binary64.one

def withSign (z : Int) (n : Nat) : Int := if z < 0 then -(n : Int) else n

theorem wholeMillis_mono {m n : Nat} (h : m ≤ n) : wholeMillis m ≤ wholeMillis n := by
  have seconds : nearest (m * Binary64.one) 1000000 ≤ nearest (n * Binary64.one) 1000000 :=
    nearest_mono (by decide) (Nat.mul_le_mul_right _ h)
  exact Nat.div_le_div_right (nearest_mono Binary64.one_pos (Nat.mul_le_mul_right _ seconds))

theorem nearestMicros_mono {m n : Nat} (h : m ≤ n) : nearestMicros m ≤ nearestMicros n := by
  have seconds : nearest (m * Binary64.one) 1000 ≤ nearest (n * Binary64.one) 1000 :=
    nearest_mono (by decide) (Nat.mul_le_mul_right _ h)
  exact halfEven_mono (Nat.mul_le_mul_right _ seconds)

theorem withSign_mono {f : Nat → Nat} (mono : ∀ {m n}, m ≤ n → f m ≤ f n) {y z : Int}
    (h : y ≤ z) : withSign y (f y.natAbs) ≤ withSign z (f z.natAbs) := by
  unfold withSign
  by_cases below : z < 0
  · have := mono (m := z.natAbs) (n := y.natAbs) (by omega)
    rw [if_pos below, if_pos (by omega)]
    omega
  · rw [if_neg below]
    split
    · omega
    · have := mono (m := y.natAbs) (n := z.natAbs) (by omega)
      omega

/-- Up to this many seconds nothing is near the limit of doubles. -/
def horizon : Nat := 2 ^ 38

theorem ofRatio_seconds {z : Int} {den : Nat} (pos : 0 < den) (h : z.natAbs ≤ horizon * den) :
    ∃ m : Magnitude, m.units = nearest (z.natAbs * Binary64.one) den ∧
      m.units ≤ horizon * Binary64.one ∧ Binary64.ofRatio z den = .finite (z < 0) m := by
  have holds : Holds (horizon * Binary64.one) := Binary64.holds_whole (by decide)
  have low : z.natAbs * Binary64.one ≤ horizon * Binary64.one * den := by
    rw [Nat.mul_right_comm]
    exact Nat.mul_le_mul_right _ h
  obtain ⟨fits, rounded⟩ := Binary64.round_of_le (z < 0) pos holds low
  exact ⟨⟨_, fits⟩, rfl, nearest_le pos holds.2 low, rounded⟩

theorem mul_thousand (negative : Bool) {m : Magnitude} (h : m.units ≤ horizon * Binary64.one) :
    ∃ fits, .finite negative m * Binary64.ofInt 1000 =
      .finite negative ⟨nearest (m.units * (1000 * Binary64.one)) Binary64.one, fits⟩ := by
  have holds : Holds (horizon * 1000 * Binary64.one) := Binary64.holds_whole (by decide)
  have high : m.units * (1000 * Binary64.one) ≤
      horizon * 1000 * Binary64.one * Binary64.one := by
    have := Nat.mul_le_mul_right (1000 * Binary64.one) h
    generalize Binary64.one = unit at this ⊢
    generalize (1000 : Nat) = thousand at this ⊢
    refine Nat.le_trans this (Nat.le_of_eq ?_)
    ac_rfl
  obtain ⟨fits, rounded⟩ := Binary64.round_of_le negative Binary64.one_pos holds high
  refine ⟨fits, ?_⟩
  have thousand := Binary64.ofInt_natCast (k := 1000) (by decide)
  rw [Nat.cast_ofNat] at thousand
  rw [thousand]
  change Binary64.mul _ _ = _
  rw [Binary64.mul, Bool.bne_false]
  exact rounded

theorem epochMillis_eq {t : Instant} (h : t.micros.natAbs ≤ horizon * 1000000) :
    t.epochMillis = withSign t.micros (wholeMillis t.micros.natAbs) := by
  obtain ⟨m, units, low, seconds⟩ := ofRatio_seconds (by decide) h
  obtain ⟨fits, millis⟩ := mul_thousand (t.micros < 0) low
  rw [epochMillis, seconds, millis, withSign, wholeMillis, ← units]
  simp only [Binary64.truncate?, Binary64.signed, Option.getD_some, decide_eq_true_eq]
  split
  · rw [Int.neg_tdiv, ← Int.ofNat_tdiv]
  · rw [← Int.ofNat_tdiv]

theorem ofSeconds_eq (negative : Bool) {m : Magnitude} (h : m.units ≤ horizon * Binary64.one) :
    ofSeconds negative m = inYears
      ⟨if negative then -(halfEven (m.units * 1000000) Binary64.one : Int)
        else halfEven (m.units * 1000000) Binary64.one⟩ := by
  have pos := Binary64.one_pos
  unfold horizon at h
  unfold ofSeconds Binary64.signed
  generalize Binary64.one = unit at *
  apply if_neg
  split <;> omega

theorem ofEpochMillis_eq {ms : Int} (h : ms.natAbs ≤ horizon * 1000) :
    ofEpochMillis ms = inYears ⟨withSign ms (nearestMicros ms.natAbs)⟩ := by
  obtain ⟨m, units, low, seconds⟩ := ofRatio_seconds (by decide) h
  rw [ofEpochMillis, seconds, ofQuotient, ofSeconds_eq _ low, withSign, nearestMicros, ← units]
  simp only [decide_eq_true_eq]

theorem Dated.natAbs_le {t : Instant} (h : t.Dated) : t.micros.natAbs ≤ horizon * 1000000 := by
  rw [dated_iff] at h
  unfold horizon
  omega

/-- Timestamps keep the order of the instants. -/
theorem epochMillis_mono {t u : Instant} (ht : t.Dated) (hu : u.Dated)
    (h : t.micros ≤ u.micros) : t.epochMillis ≤ u.epochMillis := by
  rw [epochMillis_eq ht.natAbs_le, epochMillis_eq hu.natAbs_le]
  exact withSign_mono wholeMillis_mono h

/-- The ends of the years 1 to 9999, and the first instant that is rounded out of them. -/
theorem epochMillis_ends :
    epochMillis ⟨-62135596800000000⟩ = -62135596800000 ∧
      epochMillis ⟨253402300799999984⟩ = 253402300799999 ∧
      epochMillis ⟨253402300799999985⟩ = 253402300800000 ∧
      epochMillis ⟨253402300799999999⟩ = 253402300800000 := by
  decide +kernel

theorem epochMillis_of_early {t : Instant} (first : -62135596800000000 ≤ t.micros)
    (last : t.micros < 253402300799999985) :
    -62135596800000 ≤ t.epochMillis ∧ t.epochMillis ≤ 253402300799999 := by
  obtain ⟨low, high, -⟩ := epochMillis_ends
  have dated : t.Dated := (dated_iff t).mpr (by omega)
  constructor
  · rw [← low]
    exact epochMillis_mono (by decide) dated first
  · rw [← high]
    exact epochMillis_mono dated (by decide) (by dsimp only; omega)

theorem epochMillis_of_late {t : Instant} (dated : t.Dated)
    (late : 253402300799999985 ≤ t.micros) : t.epochMillis = 253402300800000 := by
  obtain ⟨-, -, low, high⟩ := epochMillis_ends
  have last := ((dated_iff t).mp dated).2
  apply Int.le_antisymm
  · rw [← high]
    exact epochMillis_mono dated (by decide) (by dsimp only; omega)
  · rw [← low]
    exact epochMillis_mono (by decide) dated late

theorem epochMillis_of_dated {t : Instant} (dated : t.Dated) :
    -62135596800000 ≤ t.epochMillis ∧ t.epochMillis ≤ 253402300800000 := by
  have range := (dated_iff t).mp dated
  by_cases late : 253402300799999985 ≤ t.micros
  · rw [epochMillis_of_late dated late]
    decide
  · have := epochMillis_of_early range.1 (Int.not_le.mp late)
    omega

/-- All but the last 15 microseconds of the years 1 to 9999 are timely. -/
theorem timely_iff (t : Instant) :
    t.Timely ↔ -62135596800000000 ≤ t.micros ∧ t.micros < 253402300799999985 := by
  constructor
  · rintro ⟨dated, stamped⟩
    refine ⟨((dated_iff t).mp dated).1, ?_⟩
    by_contra late
    rw [epochMillis_of_late dated (by omega)] at stamped
    revert stamped
    decide
  · rintro ⟨first, last⟩
    obtain ⟨low, high⟩ := epochMillis_of_early first last
    refine ⟨(dated_iff t).mpr (by omega), (dated_iff _).mpr ?_⟩
    unfold ofMillis
    dsimp only
    omega

theorem nearestMicros_ends :
    -62135596800000000 ≤
        withSign (-62135596800000) (nearestMicros (-62135596800000 : Int).natAbs) ∧
      withSign 253402300799999 (nearestMicros (253402300799999 : Int).natAbs) <
        253402300800000000 := by
  decide +kernel

/-- The instant of a count of milliseconds in the years 1 to 9999. -/
theorem ofEpochMillis_of_dated {ms : Int} (h : (ofMillis ms).Dated) :
    ofEpochMillis ms = .ok ⟨withSign ms (nearestMicros ms.natAbs)⟩ ∧
      Dated ⟨withSign ms (nearestMicros ms.natAbs)⟩ := by
  rw [dated_iff] at h
  unfold ofMillis at h
  dsimp only at h
  obtain ⟨bottom, top⟩ := nearestMicros_ends
  have above := Int.le_trans bottom (withSign_mono nearestMicros_mono (z := ms) (by omega))
  have below := Int.lt_of_le_of_lt (withSign_mono nearestMicros_mono (y := ms) (by omega)) top
  have there : Dated ⟨withSign ms (nearestMicros ms.natAbs)⟩ := by
    rw [dated_iff]
    generalize withSign _ _ = z at above below ⊢
    exact ⟨above, below⟩
  exact ⟨by rw [ofEpochMillis_eq (by unfold horizon; omega), inYears_of_dated there], there⟩

end Instant

end DeskCalculator.Clock
