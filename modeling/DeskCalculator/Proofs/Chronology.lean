import DeskCalculator.Clock.Reading
import DeskCalculator.Proofs.Enclosed
import DeskCalculator.Proofs.Timestamps

/-!
# Timestamps of readings

A clock is read in the years 1 to 9999 of its own place, so that with its offset the instant may
lie a day outside of them. That is near enough (`Lawful.near`) for timestamps to keep the order of
the instants, whatever the offsets, and to be exact at whole seconds: `epochMillis_chronological`.
-/

namespace DeskCalculator.Number

/-- A quotient that is a whole number is exact. -/
theorem nearest_whole {k den : Nat} (pos : 0 < den) (h : k ≤ 2 ^ 53) :
    nearest (k * Binary64.one * den) den = k * Binary64.one :=
  nearest_mul_eq (Binary64.holds_whole h).2 pos

end DeskCalculator.Number

namespace DeskCalculator.Clock

namespace Civil

theorem daysBeforeMonth_le (year : Int) {month : Nat} (h : month ≤ 12) :
    daysBeforeMonth year month ≤ 335 := by
  revert month
  unfold daysBeforeMonth monthLengths
  cases isLeap year <;> decide

theorem monthLength_le (year : Int) (month : Nat) :
    (monthLengths year).getD (month - 1) 0 ≤ 31 := by
  have longest : ∀ length ∈ monthLengths year, length ≤ 31 := by
    unfold monthLengths
    cases isLeap year <;> decide
  rw [List.getD_eq_getElem?_getD]
  cases found : (monthLengths year)[month - 1]? with
  | none => exact Nat.zero_le _
  | some length => exact longest length (List.mem_of_getElem? found)

end Civil

namespace Reading
open DeskCalculator.Expr (bind_eq_ok)
open Number Instant

/-- What a reading can be: each part is in its range, and the offset less than a day. -/
structure Lawful (r : Reading) : Prop where
  year : 1 ≤ r.date.year ∧ r.date.year ≤ 9999
  month : 1 ≤ r.date.month ∧ r.date.month ≤ 12
  day : 1 ≤ r.date.day ∧ r.date.day ≤ (monthLengths r.date.year).getD (r.date.month - 1) 0
  hour : r.hour ≤ 23
  minute : r.minute ≤ 59
  second : r.second ≤ 59
  microsecond : r.microsecond ≤ 999999
  offset : ∀ o ∈ r.offset, o.natAbs < dayMicros.natAbs

variable {r : Reading}

theorem within_ok {name : String} {first last m : Nat} {n : Int}
    (h : within name first last n = .ok m) : first ≤ m ∧ m ≤ last := by
  unfold within at h
  split at h
  · cases h
    omega
  · cases h

theorem dayWithin_ok {year : Int} {month m : Nat} {n : Int} (h : dayWithin year month n = .ok m) :
    1 ≤ m ∧ m ≤ (monthLengths year).getD (month - 1) 0 := by
  unfold dayWithin at h
  split at h
  · cases h
    omega
  · cases h

theorem withinDay_ok {minutes : Int} (h : withinDay minutes = .ok ()) : minutes.natAbs < 1440 := by
  unfold withinDay at h
  dsimp only at h
  split at h
  · cases h
  · split at h
    · cases h
    · split at h
      · cases h
      · rename_i short
        exact Nat.not_le.mp short

/-- A reading that can be made is lawful. -/
theorem lawful_of_ofParts {year month day hour minute second microsecond : Int}
    {offset : Option Int}
    (h : ofParts year month day hour minute second microsecond offset = .ok r) : r.Lawful := by
  obtain ⟨⟨⟩, near, h⟩ := bind_eq_ok.mp h
  obtain ⟨-, -, h⟩ := bind_eq_ok.mp h
  split at h
  · cases h
  · rename_i years
    obtain ⟨m, month, h⟩ := bind_eq_ok.mp h
    obtain ⟨d, day, h⟩ := bind_eq_ok.mp h
    obtain ⟨_, hour, h⟩ := bind_eq_ok.mp h
    obtain ⟨_, minute, h⟩ := bind_eq_ok.mp h
    obtain ⟨_, second, h⟩ := bind_eq_ok.mp h
    obtain ⟨_, microsecond, h⟩ := bind_eq_ok.mp h
    cases h
    refine ⟨by dsimp only; omega, within_ok month, dayWithin_ok day, (within_ok hour).2,
      (within_ok minute).2, (within_ok second).2, (within_ok microsecond).2, ?_⟩
    intro o given
    cases offset with
    | none => cases given
    | some minutes =>
      have := withinDay_ok near
      cases given
      unfold dayMicros
      dsimp only
      omega

/-- The seconds to a reading are few enough for a thousand times as many to be exact. -/
theorem Lawful.near (h : r.Lawful) :
    r.instant.micros.natAbs ≤ horizon * 1000000 := by
  have before := Civil.daysBeforeMonth_le r.date.year h.month.2
  have length := Civil.monthLength_le r.date.year r.date.month
  have epoch : epochDay = 719162 := by decide
  have offset : (r.offset.getD 0).natAbs < dayMicros.natAbs := by
    cases given : r.offset with
    | none => decide
    | some o => exact h.offset o given
  obtain ⟨⟨_, _⟩, _, ⟨_, _⟩, _, _, _, _, -⟩ := h
  unfold instant Civil.days daysBeforeYear timeOfDay horizon
  rw [epoch]
  unfold dayMicros at *
  dsimp only
  omega

end Reading

namespace Instant
open Number

theorem wholeMillis_of_seconds {k : Nat} (h : k ≤ horizon) :
    wholeMillis (k * 1000000) = k * 1000 := by
  unfold horizon at h
  have seconds : nearest (k * 1000000 * Binary64.one) 1000000 = k * Binary64.one := by
    rw [Nat.mul_right_comm]
    exact nearest_whole (by decide) (by omega)
  have product (unit : Nat) : k * unit * (1000 * unit) = k * 1000 * unit * unit := by ac_rfl
  rw [wholeMillis, seconds, product, nearest_whole Binary64.one_pos (by omega)]
  exact Nat.mul_div_cancel _ Binary64.one_pos

end Instant

namespace Reading
open Number Instant

variable {a b : Reading}

/-- **Timestamps keep the order of the instants,** wherever these are read, and at a whole second
they are exact. -/
theorem epochMillis_chronological (ha : a.Lawful) (hb : b.Lawful) :
    (a.instant.micros ≤ b.instant.micros → a.instant.epochMillis ≤ b.instant.epochMillis) ∧
      ∀ seconds : Int, a.instant.micros = seconds * 1000000 →
        a.instant.epochMillis = seconds * 1000 := by
  rw [epochMillis_eq ha.near, epochMillis_eq hb.near]
  refine ⟨withSign_mono wholeMillis_mono, fun seconds whole => ?_⟩
  have near := ha.near
  have size : a.instant.micros.natAbs = seconds.natAbs * 1000000 := by omega
  rw [size, wholeMillis_of_seconds (by omega), withSign, whole]
  split <;> omega

/-- Half past midnight in a place two hours ahead, and the same night an hour later at Greenwich. -/
theorem epochMillis_chronological_midnight :
    let a : Reading := ⟨⟨1970, 1, 1⟩, 0, 30, 0, 0, some 7200000000⟩
    let b : Reading := ⟨⟨1969, 12, 31⟩, 23, 30, 0, 1, none⟩
    a.Lawful ∧ b.Lawful ∧ a.instant.micros ≤ b.instant.micros ∧
      a.instant.epochMillis ≤ b.instant.epochMillis ∧ a.instant.epochMillis = -5400000 := by
  intro a b
  have ha : a.Lawful := by
    constructor <;> decide
  have hb : b.Lawful := by
    constructor <;> decide
  have order : a.instant.micros ≤ b.instant.micros := by decide
  obtain ⟨mono, whole⟩ := epochMillis_chronological ha hb
  have exact : a.instant.epochMillis = -5400 * 1000 := whole (-5400) (by decide)
  exact ⟨ha, hb, order, mono order, exact⟩

end Reading

end DeskCalculator.Clock
