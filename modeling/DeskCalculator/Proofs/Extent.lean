import DeskCalculator.Proofs.Panels
import DeskCalculator.Settings.Admitted

/-!
# How wide numbers are shown

The exponent of a double has three digits at most (`significant_range`), so its scientific form
takes eight characters more than its places (`length_scientific_significant`). A number is in that
form only where no plain form fits, and so no panel shows a number wider than either it or that
form: `length_format_le`.
-/

namespace DeskCalculator.Number

theorem five_range : 10 ^ 750 ≤ five ∧ 2 * (limit * five) < 10 ^ 1390 := by decide +kernel

section
variable {places c n v : Nat}

/-- A number read as `c` steps of `10 ^ n`, with so many places, is below ten steps of the first. -/
theorem lt_pow_of_mantissa (high : c < 10 ^ (places + 1))
    (above : 2 * (v * 10 ^ places) ≤ 2 * (c * 10 ^ n) + 10 ^ n) : v < 10 ^ (n + 1) := by
  apply Nat.lt_of_mul_lt_mul_right (a := 10 ^ places)
  have most := Nat.mul_le_mul_right (10 ^ n) (Nat.succ_le_of_lt high)
  have step : 10 ^ (places + 1) * 10 ^ n = 10 ^ (n + 1) * 10 ^ places := by
    rw [← Nat.pow_add, ← Nat.pow_add]
    congr 1
    omega
  rw [Nat.succ_mul, step] at most
  have := Nat.pow_pos (n := n) (by decide : 0 < 10)
  omega

theorem pow_le_of_mantissa (low : 10 ^ places ≤ c)
    (below : 2 * (c * 10 ^ n) ≤ 2 * (v * 10 ^ places) + 10 ^ n) : 10 ^ n ≤ 2 * v := by
  have one := Nat.pow_pos (n := places) (by decide : 0 < 10)
  apply Nat.le_of_mul_le_mul_right _ one
  have first := Nat.mul_le_mul_right (10 ^ n) low
  have step := Nat.le_mul_of_pos_left (10 ^ n) one
  rw [Nat.mul_comm, Nat.mul_assoc]
  omega

end

/-- However many digits a double is rounded to, its exponent has three at most. -/
theorem significant_range (places : Nat) (negative : Bool) (m : Magnitude) :
    ∃ c e, significant places negative m = ⟨negative, c, places, e⟩ ∧ c < 10 ^ (places + 1) ∧
      e.natAbs < 10 ^ 3 := by
  by_cases some : m.units = 0
  · refine ⟨0, 0, ?_, Nat.pow_pos (by decide), by decide⟩
    rw [significant, if_pos some]
  obtain ⟨c, n, same, low, high, above, below, -⟩ := significant_spec places negative some
  obtain ⟨least, most⟩ := five_range
  have far : 750 < n + 1 := by
    apply (Nat.pow_lt_pow_iff_right (by decide : 1 < 10)).mp
    calc 10 ^ 750 ≤ five := least
      _ ≤ m.units * five := Nat.le_mul_of_pos_left _ (Nat.pos_of_ne_zero some)
      _ < 10 ^ (n + 1) := lt_pow_of_mantissa high above
  have near : n < 1390 := by
    apply (Nat.pow_lt_pow_iff_right (by decide : 1 < 10)).mp
    have units := Nat.mul_lt_mul_of_pos_right m.holds.1 five_pos
    calc 10 ^ n ≤ 2 * (m.units * five) := pow_le_of_mantissa low below
      _ < 2 * (limit * five) := Nat.mul_lt_mul_of_pos_left units Nat.two_pos
      _ < 10 ^ 1390 := most
  exact ⟨c, n - 1074, same, high, by omega⟩

end DeskCalculator.Number

namespace DeskCalculator.Numeral
open Number

theorem length_pointed (places : Nat) (ds : List Char) :
    (pointed places ds).length = max (places + 1) ds.length + 1 := by
  simp only [pointed, padded, List.length_append, List.length_take, List.length_cons,
    List.length_drop, List.length_replicate]
  omega

theorem length_mantissa_le {places c : Nat} (h : c < 10 ^ (places + 1)) :
    (mantissa places (digits c)).length ≤ places + 2 := by
  have short := length_digits_le (Nat.succ_pos places) h
  unfold mantissa
  split
  · omega
  · rw [length_pointed]
    omega

/-- **Scientific text is narrow:** a sign, a digit and a point, the places, and an exponent
with its sign. -/
theorem length_scientific_significant (places : Nat) (negative : Bool) (m : Magnitude) :
    (scientific (significant places negative m)).length ≤ places + 8 := by
  obtain ⟨c, e, same, short, range⟩ := significant_range places negative m
  have front := length_mantissa_le short
  have behind := length_digits_le (by decide) range
  have sign : negative.toNat ≤ 1 := by cases negative <;> decide
  rw [same, scientific, String.length_ofList]
  simp only [List.length_append, List.length_cons, length_sign, signedExponent]
  omega

end DeskCalculator.Numeral

namespace DeskCalculator.Display
open Number Numeral Settings

/-- The settings of a panel as the fields of their section. -/
def Params.fields (p : Params) : Fields :=
  [("max_length", .int p.maxLength), ("round_digits", .int p.roundDigits),
    ("exponent_digits", .int p.exponentDigits), ("error_text", .text p.errorText)]

/-- The settings that break no rule are those of a panel. -/
theorem valid_of_validate {p : Params} (h : Section.display.validate p.fields = []) : p.Valid :=
  params_valid h

/-- What is laid out fits on the display, or is in scientific form because its plain form does
not fit. -/
theorem layout_cases {p : Params} (valid : p.Valid) {s : Bool} {m : Magnitude} {text : String}
    (h : layout p (.finite s m) = .ok text) :
    (text.length : Int) ≤ p.maxLength ∨
      p.maxLength < (plain (.finite s m)).length ∧
        text = scientific (significant p.exponentDigits.toNat s m) := by
  unfold layout shortened at h
  rw [scientific?_eq valid s m] at h
  simp only [bind, Except.bind] at h
  split at h
  · rename_i narrow
    cases h
    exact .inl (of_decide_eq_true narrow)
  · rename_i wide
    cases h
    split
    · rename_i narrow
      exact .inl (of_decide_eq_true narrow)
    · exact .inr ⟨by simpa [fits] using wide, rfl⟩

/-- **Numbers are shown within bounds.** With settings that break no rule the text of a number
has no more characters than the display or its places and eight more, and it fits on the display
if the plain form of the rounded number does. -/
theorem length_format_le {p : Params} (accepted : Section.display.validate p.fields = [])
    {x : Binary64} (finite : x.isFinite = true) :
    ∃ text, format p (some x) = .ok text ∧
      (text.length : Int) ≤ max p.maxLength (p.exponentDigits + 8) ∧
      ∃ y, rounded p.roundDigits x = .ok y ∧
        ((plain y).length ≤ p.maxLength → text.length ≤ p.maxLength) := by
  have valid := valid_of_validate accepted
  obtain ⟨y, rounds, finite'⟩ := rounded_ok valid finite
  obtain ⟨text, laid⟩ := layout_ok valid finite'
  have shown : format p (some x) = .ok text := by
    simp only [format, finite, ↓reduceIte, rounds]
    exact laid
  obtain ⟨s, m, rfl⟩ : ∃ s m, y = .finite s m := by
    cases y with
    | finite s m => exact ⟨s, m, rfl⟩
    | _ => cases finite'
  refine ⟨text, shown, ?_, _, rounds, ?_⟩
  all_goals rcases layout_cases valid laid with fits | ⟨wide, rfl⟩
  · omega
  · have narrow := length_scientific_significant p.exponentDigits.toNat s m
    have places := valid.2.2.2.1
    omega
  · exact fun _ => fits
  · omega

/-- Rounding to one place carries 9.99e99 into a third digit of the exponent. -/
theorem length_format_carried :
    let p : Params := ⟨8, 0, 1, "Error"⟩
    let x := (Decimal.mk false 999 97).nearest
    Section.display.validate p.fields = [] ∧ x.isFinite = true ∧
    ∃ text, format p (some x) = .ok text ∧ (text.length : Int) ≤ 9 ∧
      ∃ y, rounded p.roundDigits x = .ok y ∧
        ((plain y).length ≤ p.maxLength → text.length ≤ p.maxLength) := by
  intro p x
  have accepted : Section.display.validate p.fields = [] := rfl
  have finite : x.isFinite = true := by decide +kernel
  exact ⟨accepted, finite, length_format_le accepted finite⟩

end DeskCalculator.Display
