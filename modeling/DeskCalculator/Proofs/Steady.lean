import DeskCalculator.Proofs.Width

/-!
# Texts that are shown again

What rounding to places turns a number into is among its neighbours, so of the two one at most
fits on the display (`eq_of_fits`); the other is shown with its eleven digits, and these are
the digits of both (`significant_near`). A number that fits is therefore shown again just when
rounding keeps it or eleven digits are all it has: `shown_eq_plain_iff`. Where only eleven
digits were shown in the first place nothing more is lost: `shown_eleven`. `shown_read` is what
that says of a text that is read and shown again.
-/

namespace DeskCalculator.Display
open Number Numeral Binary64

/-- The text of a mantissa: its number in plain form, if that fits. -/
def spelled (n : Scientific) : String :=
  if (plain n.decimal.nearest).length ≤ 16 then plain n.decimal.nearest else scientific n

theorem layout_standard (s : Bool) (m : Magnitude) :
    layout Panel.standard.params (.finite s m) =
      .ok (if (plain (.finite s m)).length ≤ 16 then plain (.finite s m)
        else spelled (significant 10 s m)) := by
  have digits : scientific? Panel.standard.params.exponentDigits (.finite s m) =
      .ok (significant 10 s m) := rfl
  have room (text : String) : fits Panel.standard.params text = decide (text.length ≤ 16) := by
    rw [Bool.eq_iff_iff, fits, decide_eq_true_eq, decide_eq_true_eq]
    exact Int.ofNat_le
  unfold layout shortened
  rw [digits]
  simp only [bind, Except.bind, room, decide_eq_true_eq, spelled]
  split <;> rfl

/-- What is shown for a number that rounding to places turns into another. -/
theorem shown_of_rounded {s t : Bool} {m k : Magnitude}
    (h : rounded 12 (.finite s m) = .ok (.finite t k)) :
    Panel.standard.shown (some (.finite s m)) =
      if (plain (.finite t k)).length ≤ 16 then plain (.finite t k)
      else spelled (significant 10 t k) := by
  obtain ⟨y, same, -, laid⟩ := layout_eq_shown .standard (x := .finite s m) rfl
  have same : rounded 12 (.finite s m) = .ok y := same
  cases Except.ok.inj (h.symm.trans same)
  rw [layout_standard] at laid
  exact (Except.ok.inj laid).symm

/-- Of neighbours one at most fits. -/
theorem eq_of_fits {s t : Bool} {m k : Magnitude} (large : 2 ^ 12 * one ≤ m.units)
    (small : m.units < 10 ^ 15 * one) (close : Near k.units m.units)
    (fit : (plain (.finite s m)).length ≤ 16) (fit' : (plain (.finite t k)).length ≤ 16) :
    k.units = m.units := by
  have normal := normal_one
  obtain ⟨near, near'⟩ := id close
  have some : 0 < m.units := by omega
  have some' : 0 < k.units := by omega
  obtain ⟨below, a, i, found, short⟩ := short_of_small some small fit
  have small' : k.units < 10 ^ 15 * one := by omega
  obtain ⟨-, b, j, found', short'⟩ := short_of_small some' small' fit'
  exact eq_of_short short' short (within_coarsest some' found') (within_coarsest some found)
    k.holds.2 m.holds.2 (by omega) (by omega) close

/-- A number is unsteady if rounding to places turns it into another and it has more than
eleven digits, for these are all that is left of that other one. -/
def Unsteady : Binary64 → Prop
  | .finite s m => rounded 12 (.finite s m) ≠ .ok (.finite s m) ∧
      (significant 10 s m).decimal.nearest ≠ .finite s m
  | _ => False

/-- A mantissa reads as the number it stands for, also in plain form, unless that is a zero. -/
theorem read?_spelled {s : Bool} {c n : Nat} (normal : 2 ^ 52 * (10 ^ 10 * five) ≤ c * 10 ^ n) :
    read? (spelled ⟨s, c, 10, n - 1074⟩) =
      some (Scientific.mk s c 10 (n - 1074)).decimal.nearest := by
  unfold spelled
  split
  · have least := le_nearest (Nat.mul_pos (by decide) five_pos) (spacing_two_pow_dvd 52) normal
    rw [read?_plain, Scientific.nearest_eq]
    unfold Binary64.round
    split
    · have some : nearest (c * 10 ^ n) (10 ^ 10 * five) ≠ 0 := by omega
      simp [unsignZero, some]
    · rfl
  · exact read?_scientific _

/-- **A number with twelve places that fits is shown in plain form,** unless it is unsteady. -/
theorem shown_eq_plain_iff {s : Bool} {m : Magnitude} {z : Nat}
    (places : nearest (z * one) (10 ^ 12) = m.units) (pos : 0 < m.units)
    (small : m.units < 10 ^ 15 * one) (fit : (plain (.finite s m)).length ≤ 16) :
    Panel.standard.shown (some (.finite s m)) = plain (.finite s m) ↔
      ¬ Unsteady (.finite s m) := by
  by_cases same : rounded 12 (.finite s m) = .ok (.finite s m)
  · rw [shown_of_rounded same, if_pos fit]
    exact iff_of_true rfl fun unsteady => unsteady.1 same
  · have normal := normal_one
    have large := large_of_changed pos places same
    obtain ⟨-, k, -, rounds, moved, close⟩ := rounded_moves large same
    have long : ¬ (plain (.finite s k)).length ≤ 16 :=
      fun fit' => moved (eq_of_fits large small close fit fit')
    rw [shown_of_rounded rounds, if_neg long]
    constructor
    · rintro text ⟨-, differs⟩
      have large' : 2 ^ 53 ≤ k.units := by
        have := close.2
        omega
      obtain ⟨c, n, digits, low, high, wide, -⟩ := significant_normal s large'
      have read := read?_plain (.finite s m)
      rw [← text, digits, read?_spelled wide, Scientific.nearest_eq] at read
      have value : Binary64.round s (c * 10 ^ n) (10 ^ 10 * five) = .finite s m := by
        have some : (finite s m).unsignZero = .finite s m := by
          simp [unsignZero, Nat.ne_of_gt pos]
        rw [← some]
        exact Option.some.inj read
      apply differs
      rw [significant_near low high wide (nearest_of_round value) (Near.refl _),
        Scientific.nearest_eq, value]
    · intro steady
      have value : (significant 10 s m).decimal.nearest = .finite s m :=
        Classical.byContradiction fun differs => steady ⟨same, differs⟩
      obtain ⟨c, n, digits, low, high, wide, -⟩ := significant_normal s (m := m) (by omega)
      rw [digits] at value
      have units := value
      rw [Scientific.nearest_eq] at units
      rw [significant_near low high wide (nearest_of_round units) close, spelled, value,
        if_pos fit]

/-- A number that fits is unsteady in a few places only. -/
theorem unsteady_range {s : Bool} {m : Magnitude} {z : Nat}
    (places : nearest (z * one) (10 ^ 12) = m.units) (pos : 0 < m.units)
    (small : m.units < 10 ^ 15 * one) (fit : (plain (.finite s m)).length ≤ 16)
    (unsteady : Unsteady (.finite s m)) :
    2 ^ 12 * one ≤ m.units ∧ (m.units < 4504 * one ∨ 2 ^ 13 * one ≤ m.units) := by
  refine ⟨large_of_changed pos places unsteady.1, ?_⟩
  apply Classical.byContradiction
  intro between
  have normal := normal_one
  obtain ⟨-, c, n, found, short⟩ := short_of_small pos small fit
  have within := within_coarsest pos found
  have reach : 1063 ≤ n := by
    apply Nat.le_of_not_lt
    intro fine
    obtain ⟨t, ht, tens⟩ : ∃ t, t = 1062 ∧ one * five = 10 ^ t * 10 ^ 12 :=
      ⟨1062, rfl, one_mul_five_eq (by decide)⟩
    have step : 10 ^ n ≤ 10 ^ t := Nat.pow_le_pow_right (by decide) (by omega)
    have most := Nat.mul_le_mul (Nat.le_of_lt short) step
    have least := Nat.mul_le_mul_right five (by omega : 4504 * one ≤ m.units)
    have near := (within.relative (by omega)).2
    have power : 0 < 10 ^ t := Nat.pow_pos (by decide)
    rw [Nat.mul_assoc, tens] at least
    omega
  obtain ⟨j, rfl⟩ : ∃ j, n = 1062 + (j + 1) := ⟨n - 1063, by omega⟩
  have eleven := places_of_within pos within
  have even : c * 10 ^ (j + 1) % 2 = 0 := by
    rw [Nat.pow_succ, ← Nat.mul_assoc]
    omega
  exact unsteady.1 (rounded_of_kept (Nat.ne_of_gt pos)
    (rescaled_even even eleven (by omega) (by omega) s))

/-- What a whole number rounds to is whole. -/
theorem one_dvd_nearest {z : Nat} {m : Magnitude} (value : nearest (z * one) 1 = m.units) :
    one ∣ m.units := by
  rcases Nat.lt_or_ge z (2 ^ 53) with small | large
  · have same := value.symm.trans (nearest_eq (holds_whole (Nat.le_of_lt small)).2)
    exact same ▸ Nat.dvd_mul_left one z
  · have reached : 2 ^ 53 * one * 1 ≤ z * one := by
      rw [Nat.mul_one]
      exact Nat.mul_le_mul_right one large
    exact Binary64.one_dvd (value ▸ le_nearest Nat.one_pos (holds_whole (Nat.le_refl _)).2 reached)

/-- The number 10^16 is kept, and is shorter than sixteen digits. -/
theorem kept_limit : nearest (nearest (10 ^ 16 * one * 10 ^ 12) 1) (10 ^ 12) = 10 ^ 16 * one ∧
    Holds (10 ^ 16 * one) ∧
    (coarsest (10 ^ 16 * one) (topGrid (10 ^ 16 * one))).2 ≠ 1074 := by decide +kernel

/-- From 10^12 on eleven digits stand for a whole number. -/
theorem one_dvd_of_eleven {m : Magnitude} {c i : Nat} (high : c < 10 ^ 11)
    (within : Within m.units (c * 10 ^ (1062 + i)) five) (large : 10 ^ 12 * one ≤ m.units) :
    one ∣ m.units := by
  have normal := normal_one
  have reach : 12 ≤ i := by
    apply Nat.le_of_not_lt
    intro fine
    obtain ⟨t, ht, tens⟩ : ∃ t, t = 1074 ∧ one * five = 10 ^ t := ⟨1074, rfl, one_mul_five⟩
    have step : 10 ^ (1062 + i) ≤ 10 ^ t := Nat.pow_le_pow_right (by decide) (by omega)
    have most := Nat.mul_le_mul (Nat.le_of_lt high) step
    have least := Nat.mul_le_mul_right five large
    have near := (within.relative (by omega)).2
    have power : 0 < 10 ^ t := Nat.pow_pos (by decide)
    rw [Nat.mul_assoc, tens] at least
    omega
  obtain ⟨j, rfl⟩ := Nat.exists_eq_add_of_le reach
  apply one_dvd_nearest (z := c * 10 ^ j)
  apply nearest_of_within (by omega) Nat.one_pos m.holds.2
  refine within.congr five_pos Nat.one_pos ?_
  rw [Nat.mul_one, ← Nat.add_assoc, ← mul_pow_integral]

/-- What a number of eleven digits turns into does not fit, unless it is the number itself. -/
theorem eq_of_eleven {s : Bool} {m k : Magnitude} {c i : Nat} (high : c < 10 ^ 11)
    (within : Within m.units (c * 10 ^ (1062 + i)) five) (large : 2 ^ 12 * one ≤ m.units)
    (under : nearest (m.units * 10 ^ 12) 1 < limit) (units : k.units = rescaled s m.units)
    (apart : s = false → m.units * 10 ^ 12 < 2 ^ 92 * one ∨ 10 ^ 16 * one ≤ m.units)
    (fit : (plain (.finite s k)).length ≤ 16) : k.units = m.units := by
  have normal := normal_one
  have close := rescaled_near s large under
  rw [← units] at close
  obtain ⟨near, near'⟩ := id close
  have pos : 0 < k.units := by omega
  generalize found : coarsest k.units (topGrid k.units) = point
  obtain ⟨b, j⟩ := point
  have digits := short_of_fits pos found fit
  rcases Nat.lt_or_ge b (10 ^ 15) with short | full
  · exact eq_of_short short (by omega) (within_coarsest pos found) within k.holds.2 m.holds.2
      (by omega) (by omega) close
  · obtain ⟨rfl, rfl, most⟩ := digits.resolve_left (by omega)
    have whole : nearest (b * one) 1 = k.units := by
      rw [← nearest_coarsest pos k.holds.2 found, ← one_mul_five, ← Nat.mul_assoc,
        nearest_mul_cancel _ five_pos]
    rcases apart rfl with fine | far
    · have reached : 10 ^ 15 * one ≤ k.units :=
        whole ▸ le_nearest Nat.one_pos (holds_whole (by decide : 10 ^ 15 ≤ 2 ^ 53)).2
          (by rw [Nat.mul_one]; exact Nat.mul_le_mul_right one full)
      rw [units]
      exact rescaled_integral false (by omega) fine (one_dvd_of_eleven high within (by omega))
        (units ▸ one_dvd_nearest whole)
    · obtain ⟨keep, holds, grid⟩ := kept_limit
      have scaled : 2 ^ 53 * one ≤ nearest (m.units * 10 ^ 12) 1 :=
        le_nearest Nat.one_pos (holds_whole (Nat.le_refl _)).2 (by omega)
      have least : 10 ^ 16 * one ≤ k.units := by
        have product := nearest_mono Nat.one_pos (Nat.mul_le_mul_right (10 ^ 12) far)
        have quotient := nearest_mono (by decide : 0 < 10 ^ 12) product
        rw [keep] at quotient
        rw [units, rescaled_of_large false scaled under]
        exact quotient
      have highest : k.units ≤ 10 ^ 16 * one :=
        whole ▸ nearest_le Nat.one_pos holds.2
          (by rw [Nat.mul_one]; exact Nat.mul_le_mul_right one (Nat.le_of_lt most))
      rw [Nat.le_antisymm highest least] at found
      exact absurd (congrArg Prod.snd found) grid

/-- **Eleven digits are shown again.** -/
theorem shown_eleven {s : Bool} {m : Magnitude} {c n : Nat} (low : 10 ^ 10 ≤ c)
    (high : c < 10 ^ 11) (grid : 1072 ≤ n) (wide : 2 ^ 52 * (10 ^ 10 * five) ≤ c * 10 ^ n)
    (value : Binary64.round s (c * 10 ^ n) (10 ^ 10 * five) = .finite s m)
    (apart : s = false → m.units * 10 ^ 12 < 2 ^ 92 * one ∨ 10 ^ 16 * one ≤ m.units) :
    Panel.standard.shown (some (.finite s m)) = spelled ⟨s, c, 10, n - 1074⟩ := by
  have den : 0 < 10 ^ 10 * five := Nat.mul_pos (by decide) five_pos
  have units := nearest_of_round value
  have normal : 2 ^ 52 ≤ m.units := units ▸ le_nearest den (spacing_two_pow_dvd 52) wide
  have pos : 0 < m.units := by omega
  have kept (same : rounded 12 (.finite s m) = .ok (.finite s m)) :
      Panel.standard.shown (some (.finite s m)) = spelled ⟨s, c, 10, n - 1074⟩ := by
    rw [shown_of_rounded same, significant_near low high wide units (Near.refl _), spelled,
      Scientific.nearest_eq, value]
    by_cases fit : (plain (.finite s m)).length ≤ 16
    · rw [if_pos fit, if_pos fit]
    · rw [if_neg fit]
  by_cases same : rounded 12 (.finite s m) = .ok (.finite s m)
  · exact kept same
  obtain ⟨i, rfl⟩ := Nat.exists_eq_add_of_le grid
  have within : Within m.units (c * 10 ^ (1062 + i)) five := by
    refine (within_of_nearest den pos units).congr den five_pos ?_
    have grids : 1072 + i = 1062 + i + 10 := by omega
    rw [grids, Nat.pow_add, ← Nat.mul_assoc, Nat.mul_assoc]
  have large := large_of_changed pos (places_of_within pos within) same
  obtain ⟨under, k, rescales, rounds, moved, close⟩ := rounded_moves large same
  have long : ¬ (plain (.finite s k)).length ≤ 16 :=
    fun fit => moved (eq_of_eleven high within large under rescales apart fit)
  rw [shown_of_rounded rounds, if_neg long, significant_near low high wide units close]

/-- A rounded number that fits is shown again, unless it is unsteady. -/
theorem plain_steady {t : Bool} {k : Magnitude} (zero : k.units = 0 → t = false)
    (places : k.units < 10 ^ 15 * one → ∃ z, nearest (z * one) (10 ^ 12) = k.units)
    (kept : 9008 * one ≤ k.units → rounded 12 (.finite t k) = .ok (.finite t k))
    (fit : (plain (.finite t k)).length ≤ 16) :
    (Panel.standard.shown (some (.finite t k)) = plain (.finite t k) ↔
      ¬ Unsteady (.finite t k)) ∧
    (Unsteady (.finite t k) → 2 ^ 12 * one ≤ k.units ∧ k.units < 4504 * one ∨
      2 ^ 13 * one ≤ k.units ∧ k.units < 9008 * one) := by
  by_cases same : rounded 12 (.finite t k) = .ok (.finite t k)
  · refine ⟨iff_of_true ?_ fun unsteady => unsteady.1 same, fun unsteady => absurd same unsteady.1⟩
    rw [shown_of_rounded same, if_pos fit]
  · have unit := Binary64.one_pos
    have below : k.units < 9008 * one := Nat.lt_of_not_le fun large => same (kept large)
    have pos : 0 < k.units := by
      apply Nat.pos_of_ne_zero
      intro none
      obtain rfl : k = .zero := Magnitude.eq_of_units none
      rw [zero none] at same
      exact same rounded_origin
    obtain ⟨z, steps⟩ := places (by omega)
    refine ⟨shown_eq_plain_iff steps pos (by omega) fit, fun unsteady => ?_⟩
    have range := unsteady_range steps pos (by omega) fit unsteady
    omega

/-- From 2^52 on there are whole numbers only. -/
theorem whole_of_large {m : Magnitude} (large : 2 ^ 52 * one ≤ m.units) :
    ∃ q, m.units = q * one := by
  obtain ⟨t, ht, unit⟩ : ∃ t, t = 1074 ∧ one = 2 ^ t := ⟨1074, rfl, rfl⟩
  rw [unit, ← Nat.pow_add] at large
  obtain ⟨q, whole⟩ := pow_dvd_of_le m.holds.2 large
  exact ⟨q, by rw [whole, unit, Nat.mul_comm]⟩

/-- Rounding to eleven digits does not cross a power of ten. -/
theorem le_of_significant {u c n : Nat} (low : 10 ^ 10 ≤ c)
    (above : 2 * (u * five * 10 ^ 10) ≤ 2 * (c * 10 ^ n) + 10 ^ n) (large : 10 ^ 16 * one ≤ u) :
    10 ^ 16 * one * (10 ^ 10 * five) ≤ c * 10 ^ n := by
  obtain ⟨t, ht, tens⟩ : ∃ t, t = 1074 ∧ one * five = 10 ^ t := ⟨1074, rfl, one_mul_five⟩
  have least := Nat.mul_le_mul_right five large
  have power : 10 ^ 16 * one * (10 ^ 10 * five) = 10 ^ (26 + t) := by
    rw [Nat.mul_mul_mul_comm, tens, ← Nat.pow_add, ← Nat.pow_add]
  have power' : 10 ^ 16 * one * five * 10 ^ 10 = 10 ^ (26 + t) := by
    rw [← power, Nat.mul_assoc _ five, Nat.mul_comm five]
  rw [power]
  apply Nat.le_of_not_lt
  intro less
  have step : 0 < 10 ^ n := Nat.pow_pos (by decide)
  have fine : n ≤ 26 + t := by
    apply (Nat.pow_le_pow_iff_right (by decide : 1 < 10)).mp
    have := Nat.mul_le_mul_right (10 ^ n) low
    omega
  have room := add_le_of_dvd (Nat.dvd_mul_left (10 ^ n) c) (Nat.pow_dvd_pow 10 fine) less
  omega

/-- From one on eleven digits have ten places at most. -/
theorem grid_of_significant {u c n : Nat} (high : c < 10 ^ 11)
    (above : 2 * (u * five * 10 ^ 10) ≤ 2 * (c * 10 ^ n) + 10 ^ n) (large : one ≤ u) :
    1072 ≤ n := by
  apply Nat.le_of_not_lt
  intro fine
  obtain ⟨t, ht, tens⟩ : ∃ t, t = 1071 ∧ one * five = 10 ^ t * 10 ^ 3 :=
    ⟨1071, rfl, one_mul_five_eq (by decide)⟩
  have step : 10 ^ n ≤ 10 ^ t := Nat.pow_le_pow_right (by decide) (by omega)
  have most := Nat.mul_le_mul (Nat.le_of_lt high) step
  have least := Nat.mul_le_mul_right five large
  have power : 0 < 10 ^ t := Nat.pow_pos (by decide)
  omega

/-- A positive number that does not fit has seventeen digits, or its first eleven stand for a
number that is scaled to less than 2^92. -/
theorem apart_of_long {k : Magnitude} {c n l : Nat}
    (long : ¬ (plain (.finite false k)).length ≤ 16) (low : 10 ^ 10 ≤ c)
    (wide : 2 ^ 52 * (10 ^ 10 * five) ≤ c * 10 ^ n)
    (above : 2 * (k.units * five * 10 ^ 10) ≤ 2 * (c * 10 ^ n) + 10 ^ n)
    (below : 2 * (c * 10 ^ n) ≤ 2 * (k.units * five * 10 ^ 10) + 10 ^ n)
    (units : nearest (c * 10 ^ n) (10 ^ 10 * five) = l) :
    l * 10 ^ 12 < 2 ^ 92 * one ∨ 10 ^ 16 * one ≤ l := by
  have den : 0 < 10 ^ 10 * five := Nat.mul_pos (by decide) five_pos
  have error := nearest_relative den wide
  rw [units] at error
  rcases Nat.lt_or_ge (l * 10 ^ 12) (2 ^ 92 * one) with fine | far
  · exact .inl fine
  · have reached : 2 ^ 52 * one ≤ k.units := by
      apply Nat.le_of_not_lt
      intro near
      have far := Nat.mul_le_mul_right five far
      have near := Nat.mul_lt_mul_of_pos_right near five_pos
      have least := Nat.mul_le_mul_right (10 ^ n) low
      rw [Nat.mul_assoc, Nat.mul_right_comm] at far
      rw [Nat.mul_assoc] at near
      rw [Nat.mul_left_comm l] at error
      omega
    -- a whole number of sixteen digits would fit
    obtain ⟨q, whole⟩ := whole_of_large reached
    have sixteen : 10 ^ 16 * one ≤ k.units := by
      rw [whole]
      apply Nat.mul_le_mul_right
      exact Nat.le_of_not_lt fun short => long (fits_integral whole short)
    exact .inr (units ▸ le_nearest den kept_limit.2.1.2 (le_of_significant low above sixteen))

/-- A rounded number that does not fit is shown with eleven digits, and these are shown again. -/
theorem spelled_steady {t : Bool} {k : Magnitude} (long : ¬ (plain (.finite t k)).length ≤ 16)
    (large : one ≤ k.units) (reach : k.units ≤ brink) :
    ∃ l, (significant 10 t k).decimal.nearest = .finite t l ∧
      Panel.standard.shown (some (.finite t l)) = spelled (significant 10 t k) ∧
      ¬ Unsteady (.finite t l) := by
  have normal := normal_one
  have finite := significant_isFinite t reach
  obtain ⟨c, n, digits, low, high, wide, above, below⟩ := significant_normal t (m := k) (by omega)
  rw [digits, Scientific.nearest_eq] at finite ⊢
  obtain ⟨l, value⟩ : ∃ l, Binary64.round t (c * 10 ^ n) (10 ^ 10 * five) = .finite t l := by
    unfold Binary64.round at finite ⊢
    split
    · exact ⟨_, rfl⟩
    · rename_i past
      rw [dif_neg past] at finite
      cases finite
  have units := nearest_of_round value
  refine ⟨l, value, shown_eleven low high (grid_of_significant high above large) wide value ?_, ?_⟩
  · rintro rfl
    exact apart_of_long long low wide above below units
  · rintro ⟨-, differs⟩
    apply differs
    rw [significant_near low high wide units (Near.refl _), Scientific.nearest_eq, value]

/-- **What is shown is shown again** when it is read, up to the brink and unless it is unsteady.
Only numbers around four thousand and nine thousand are. -/
theorem shown_read (s : Bool) (m : Magnitude) :
    ∃ y, read? (Panel.standard.shown (some (.finite s m))) = some y ∧
      (Panel.standard.shown (some y) = Panel.standard.shown (some (.finite s m)) ↔
        m.units ≤ brink ∧ ¬ Unsteady y) ∧
      (Unsteady y → ∃ t k, y = .finite t k ∧
        (2 ^ 12 * one ≤ k.units ∧ k.units < 4504 * one ∨
          2 ^ 13 * one ≤ k.units ∧ k.units < 9008 * one)) := by
  obtain ⟨t, k, rounds, zero, places, kept⟩ := rounded_spec s m
  have text := shown_of_rounded rounds
  have names := namesInfinity_shown_iff s m
  by_cases fit : (plain (.finite t k)).length ≤ 16
  · rw [if_pos fit] at text
    have reach : m.units ≤ brink := by
      apply Nat.le_of_not_lt
      intro past
      have named := names.mpr past
      rw [text, not_namesInfinity (accepts_plain rfl)] at named
      cases named
    obtain ⟨steady, range⟩ := plain_steady zero places kept fit
    refine ⟨.finite t k, ?_, ?_, fun unsteady => ⟨t, k, rfl, range unsteady⟩⟩
    · have same : (finite t k).unsignZero = .finite t k := by
        by_cases none : k.units = 0
        · rw [zero none]
          rfl
        · simp [unsignZero, none]
      rw [text, read?_plain, same]
    · rw [text, steady]
      exact (and_iff_right reach).symm
  · rw [if_neg fit] at text
    have large : one ≤ k.units := by
      apply Nat.le_of_not_lt
      intro small
      obtain ⟨z, steps⟩ := places (by omega)
      exact fit (fits_places steps small t)
    have laid : layout Panel.standard.params (.finite t k) =
        .ok (Panel.standard.shown (some (.finite s m))) := by
      rw [layout_standard, if_neg fit, text]
    have names' := namesInfinity_layout laid
    have normal := normal_one
    have read : read? (spelled (significant 10 t k)) =
        some (significant 10 t k).decimal.nearest := by
      obtain ⟨c, n, digits, -, -, wide, -⟩ := significant_normal t (m := k) (by omega)
      rw [digits]
      exact read?_spelled wide
    rcases Nat.lt_or_ge brink k.units with past | reach
    · refine ⟨.infinity t, ?_, iff_of_false ?_ ?_, fun unsteady => unsteady.elim⟩
      · rw [text, read, significant_infinity t past]
      · intro same
        have named := names'.mpr past
        rw [← same, shown_of_not_finite _ rfl] at named
        exact absurd named (by decide)
      · rintro ⟨reach, -⟩
        exact absurd (names.mp (names'.mpr past)) (Nat.not_lt.mpr reach)
    · obtain ⟨l, value, again, steady⟩ := spelled_steady fit large reach
      refine ⟨.finite t l, ?_, iff_of_true ?_ ⟨?_, steady⟩, fun unsteady => absurd unsteady steady⟩
      · rw [text, read, value]
      · rw [text, again]
      · apply Nat.le_of_not_lt
        intro past
        exact absurd (names'.mp (names.mpr past)) (Nat.not_lt.mpr reach)

/-- The number 8410.610238187559 is shown with eleven places, and these with seven. -/
theorem not_shown_read :
    ¬ ∀ (s : Bool) (m : Magnitude), m.units ≤ 10 ^ 300 * one → ∀ y,
      read? (Panel.standard.shown (some (.finite s m))) = some y →
        Panel.standard.shown (some y) = Panel.standard.shown (some (.finite s m)) := by
  intro claimed
  let m : Magnitude := ⟨4623781876789547 * 2 ^ 1035, by decide +kernel⟩
  have small : m.units ≤ 10 ^ 300 * one := by decide +kernel
  have text : Panel.standard.shown (some (.finite false m)) = "8410.61023818756" := by
    decide +kernel
  have again : (read? "8410.61023818756").map (fun y => Panel.standard.shown (some y)) =
      some "8410.6102382" := by decide +kernel
  obtain ⟨y, read, other⟩ := Option.map_eq_some_iff.mp again
  have same := claimed false m small y (by rw [text, read])
  rw [other, text] at same
  exact absurd same (by decide)

end DeskCalculator.Display
