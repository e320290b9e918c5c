import DeskCalculator.Proofs.Overflow
import DeskCalculator.Proofs.ReadBack

/-!
# Numbers that read as finite

A number in plain form is never above the largest double, and neither is what is
left of its digits, or a number short enough for the display. `Moderate` texts
are those; they read as finite numbers. So does whatever the display shows, unless
it names an infinity: `bounded_shown`.
-/

namespace DeskCalculator.Number

/-- Below the largest double half a step up stays within it. -/
theorem highEnd_le {u : Nat} (holds : spacing u ∣ u) (h : u < largest) :
    highEnd u ≤ 4 * largest := by
  have grid := Nat.dvd_trans (spacing_dvd_spacing (Nat.le_of_lt h)) holds_largest.2
  have room : u + spacing u ≤ largest := by
    obtain ⟨a, ha⟩ := holds
    obtain ⟨b, hb⟩ := grid
    have less : a < b := by
      apply Nat.lt_of_mul_lt_mul_left (a := spacing u)
      rw [← ha, ← hb]
      exact h
    calc u + spacing u = spacing u * (a + 1) := by rw [Nat.mul_succ, ← ha]
      _ ≤ spacing u * b := Nat.mul_le_mul_left _ less
      _ = largest := hb.symm
  unfold highEnd
  generalize largest = top at room ⊢
  omega

theorem coarsest_le_highEnd {u : Nat} (pos : 0 < u) (n : Nat) :
    4 * ((coarsest u n).1 * 10 ^ (coarsest u n).2) ≤ highEnd u * five := by
  have rounds := roundsTo_coarsest pos n
  unfold roundsTo at rounds
  split at rounds
  · simp only [Bool.and_eq_true, decide_eq_true_eq] at rounds
    exact rounds.2
  · simp only [Bool.and_eq_true, decide_eq_true_eq] at rounds
    exact Nat.le_of_lt rounds.2

/-- The shortest decimal of a double is not above the largest double. -/
theorem coarsest_le_largest {m : Magnitude} (some : m.units ≠ 0) :
    (coarsest m.units (topGrid m.units)).1 * 10 ^ (coarsest m.units (topGrid m.units)).2 ≤
      largest * five := by
  rcases Nat.lt_or_eq_of_le m.le_largest with below | top
  · have high := coarsest_le_highEnd (Nat.pos_of_ne_zero some) (topGrid m.units)
    have step := Nat.mul_le_mul_right five (highEnd_le m.holds.2 below)
    rw [Nat.mul_assoc] at step
    exact Nat.le_of_mul_le_mul_left (Nat.le_trans high step) (by decide : 0 < 4)
  · have reached : (coarsest largest (topGrid largest)).1 *
        10 ^ (coarsest largest (topGrid largest)).2 ≤ largest * five := by decide +kernel
    rw [top]
    exact reached

/-- A bound on a decimal, with the power of ten on the side where it is whole. -/
theorem le_of_mul_pow_le {c n k unit top : Nat} (h : c * 10 ^ n * unit ≤ top * 10 ^ k) :
    c * 10 ^ (n - k : Int).toNat * unit ≤ top * 10 ^ (-(n - k : Int)).toNat := by
  have sum : (n - k : Int).toNat + k = n + (-(n - k : Int)).toNat := by omega
  apply Nat.le_of_mul_le_mul_right _ (Nat.pow_pos (n := k) (by decide : 0 < 10))
  calc c * 10 ^ (n - k : Int).toNat * unit * 10 ^ k
      = c * (10 ^ (n - k : Int).toNat * 10 ^ k) * unit := by ac_rfl
    _ = c * (10 ^ n * 10 ^ (-(n - k : Int)).toNat) * unit := by
        rw [← Nat.pow_add, ← Nat.pow_add, sum]
    _ = c * 10 ^ n * unit * 10 ^ (-(n - k : Int)).toNat := by ac_rfl
    _ ≤ top * 10 ^ k * 10 ^ (-(n - k : Int)).toNat := Nat.mul_le_mul_right _ h
    _ = top * 10 ^ (-(n - k : Int)).toNat * 10 ^ k := by ac_rfl

theorem shortest_le_largest (negative : Bool) (m : Magnitude) :
    (shortest negative m).coefficient * 10 ^ (shortest negative m).exponent.toNat *
      Binary64.one ≤ largest * 10 ^ (-(shortest negative m).exponent).toNat := by
  unfold shortest
  split
  · simp
  · rename_i some
    have tens : five * Binary64.one = 10 ^ 1074 := by
      unfold five Binary64.one
      generalize 1074 = k
      rw [← Nat.mul_pow]
    have bound := coarsest_le_largest some
    generalize Binary64.one = unit at tens ⊢
    generalize five = half at tens bound
    generalize largest = top at bound ⊢
    apply le_of_mul_pow_le (k := 1074)
    calc _ ≤ top * half * unit := Nat.mul_le_mul_right unit bound
      _ = top * 10 ^ 1074 := by rw [Nat.mul_assoc, tens]

end DeskCalculator.Number

namespace DeskCalculator.Numeral
open Number

/-- A simple text for a number up to the largest double. -/
def Moderate (cs : List Char) : Prop :=
  ∃ n k, Simple cs n k ∧ n * Binary64.one ≤ largest * 10 ^ k

/-- A text that stands for a finite number if it stands for one at all. -/
def Bounded (text : String) : Prop := ∀ x, read? text = some x → x.isFinite = true

theorem Moderate.accepts {cs : List Char} (h : Moderate cs) : accepts cs = true := by
  obtain ⟨n, k, simple, -⟩ := h
  exact simple.accepts

/-- What is simple reads as the decimal it is. -/
theorem Simple.read? {cs : List Char} {n k : Nat} (h : Simple cs n k) :
    ∃ negative, read? (.ofList cs) = some (Decimal.magnitude negative n (0 - k)) := by
  have clean : ∀ c ∈ [], isClean c = true := by simp
  cases h with
  | @whole negative ds some digits =>
    have read := read?_whole some digits clean rfl negative
    rw [List.append_nil] at read
    exact ⟨negative, read⟩
  | @pointed negative ds places some digits behind =>
    have read := read?_pointed some digits behind clean rfl negative
    rw [List.append_nil] at read
    exact ⟨negative, read⟩

theorem Moderate.bounded {text : String} (h : Moderate text.toList) : Bounded text := by
  obtain ⟨n, k, simple, below⟩ := h
  obtain ⟨negative, same⟩ := simple.read?
  rw [String.ofList_toList] at same
  intro x read
  cases same.symm.trans read
  apply Decimal.magnitude_isFinite negative (n := 0)
  rwa [Nat.pow_zero, Nat.mul_one]

/-- What fits on the display is far below the largest double. -/
theorem Simple.moderate {cs : List Char} {n k : Nat} (h : Simple cs n k) (short : cs.length ≤ 16) :
    Moderate cs := by
  refine ⟨n, k, h, ?_⟩
  have wide : 10 ^ 16 * Binary64.one ≤ largest :=
    Nat.le_trans (Nat.mul_le_mul_right _ (by decide : 10 ^ 16 ≤ 2 ^ 54))
      (Magnitude.le_largest ⟨_, Binary64.holds_mul_one (by decide)⟩)
  have digits : n ≤ 10 ^ 16 := Nat.le_trans (Nat.le_of_lt h.lt_pow_length)
    (Nat.pow_le_pow_right (by decide) short)
  calc n * Binary64.one ≤ 10 ^ 16 * Binary64.one := Nat.mul_le_mul_right _ digits
    _ ≤ largest := wide
    _ ≤ largest * 10 ^ k := Nat.le_mul_of_pos_right _ (Nat.pow_pos (by decide))

theorem moderate_plain {x : Binary64} (h : x.isFinite = true) : Moderate (plain x).toList := by
  cases x with
  | nan => cases h
  | infinity s => cases h
  | finite s m => exact ⟨_, _, simple_plain s m, shortest_le_largest s m⟩

theorem Moderate.digit {cs : List Char} (h : Moderate cs) {c : Char} (hc : c.isDigit = true)
    (short : cs.length < 16) : Moderate (cs ++ [c]) := by
  obtain ⟨n, k, simple, -⟩ := h
  obtain ⟨n', k', longer⟩ := simple.digit hc
  apply longer.moderate
  rw [List.length_append]
  exact short

theorem Moderate.point {cs : List Char} (h : Moderate cs) (none : '.' ∉ cs) :
    Moderate (cs ++ ['.']) := by
  obtain ⟨n, k, simple, below⟩ := h
  exact ⟨n, k, simple.point none, below⟩

theorem Moderate.dropLast {cs : List Char} (h : Moderate cs) :
    Moderate cs.dropLast ∨ ∃ negative, cs.dropLast = sign negative := by
  obtain ⟨n, k, simple, below⟩ := h
  refine simple.dropLast.imp_left ?_
  rintro ⟨n', k', shorter, less⟩
  refine ⟨n', k', shorter, ?_⟩
  generalize Binary64.one = unit at below ⊢
  generalize largest = top at below ⊢
  apply Nat.le_of_mul_le_mul_right _ (Nat.pow_pos (n := k) (by decide : 0 < 10))
  calc n' * unit * 10 ^ k = n' * 10 ^ k * unit := by ac_rfl
    _ ≤ n * 10 ^ k' * unit := Nat.mul_le_mul_right _ less
    _ = n * unit * 10 ^ k' := by ac_rfl
    _ ≤ top * 10 ^ k * 10 ^ k' := Nat.mul_le_mul_right _ below
    _ = top * 10 ^ k' * 10 ^ k := by ac_rfl

end DeskCalculator.Numeral

namespace DeskCalculator.Display
open Number Numeral

theorem bounded_error : Bounded Panel.standard.params.errorText := by
  have unread : read? Panel.standard.params.errorText = none := by decide
  intro x read
  rw [unread] at read
  cases read

theorem bounded_layout {x : Binary64} {text : String} (finite : x.isFinite = true)
    (h : layout Panel.standard.params x = .ok text)
    (other : namesInfinity text.toList = false) : Bounded text := by
  cases x with
  | nan => cases finite
  | infinity s => cases finite
  | finite s m =>
    have low : m.units ≤ brink := by
      apply Nat.le_of_not_lt
      intro past
      rw [(namesInfinity_layout h).mpr past] at other
      cases other
    have digits : scientific? Panel.standard.params.exponentDigits (.finite s m) =
        .ok (significant 10 s m) := rfl
    have finite := significant_isFinite s low
    unfold layout shortened at h
    rw [digits] at h
    simp only [bind, Except.bind] at h
    split at h
    · rw [← Except.ok.inj h]
      exact (moderate_plain rfl).bounded
    · rw [← Except.ok.inj h]
      split
      · exact (moderate_plain finite).bounded
      · intro y read
        rw [read?_scientific] at read
        cases read
        exact finite

/-- **What is shown reads back** as a finite number, unless it names an infinity. -/
theorem bounded_shown (x : Binary64)
    (other : namesInfinity (Panel.standard.shown (some x)).toList = false) :
    Bounded (Panel.standard.shown (some x)) := by
  cases finite : x.isFinite with
  | true =>
    obtain ⟨y, -, finite', laid⟩ := layout_eq_shown .standard finite
    exact bounded_layout finite' laid other
  | false =>
    rw [shown_of_not_finite _ finite]
    exact bounded_error

end DeskCalculator.Display
