import DeskCalculator.Display.Format
import DeskCalculator.Number.Bounds

/-! A panel has a text for every number. -/
namespace DeskCalculator.Display
open Number

theorem scale_eq (d : Fin 16) :
    ∃ n, scale d = .ok (.finite false n) ∧ n.units = 10 ^ d.val * Binary64.one := by
  have digits := Binary64.ofInt_natCast (k := d) (by omega)
  have power := Binary64.ofInt_natCast (k := 10 ^ d.val)
    (Nat.le_trans (Nat.pow_le_pow_right (by decide) (by omega : d.val ≤ 15)) (by decide))
  have ten : Binary64.tenPower d = Binary64.ofInt ((10 ^ d.val : Nat) : Int) := by
    rw [Binary64.tenPower, if_pos (by omega), Int.toNat_natCast, Int.natCast_pow]
    rfl
  unfold scale
  rw [ten, power, digits]
  exact ⟨_, rfl, rfl⟩

theorem scale_ok (d : Fin 16) :
    ∃ n, scale d = .ok (.finite false n) ∧ Binary64.one ≤ n.units := by
  obtain ⟨n, scaled, units⟩ := scale_eq d
  refine ⟨n, scaled, ?_⟩
  rw [units]
  exact Nat.le_mul_of_pos_left _ (Nat.pow_pos (by decide))

theorem rounded_ok {p : Params} (valid : p.Valid) {x : Binary64} (hx : x.isFinite = true) :
    ∃ y, rounded p.roundDigits x = .ok y ∧ y.isFinite = true := by
  obtain ⟨-, low, high, -⟩ := valid
  obtain ⟨n, hs, hn⟩ := scale_ok ⟨p.roundDigits.toNat, by omega⟩
  have hz : (Binary64.finite false n).isZero = false := by
    have : n.units ≠ 0 := Nat.ne_of_gt (Nat.lt_of_lt_of_le Binary64.one_pos hn)
    simp [Binary64.isZero, this]
  simp only [Int.toNat_of_nonneg low] at hs
  unfold rounded
  rw [hs]
  simp only [bind, Except.bind, hz, Bool.false_eq_true, ↓reduceIte]
  split
  · exact ⟨x, rfl, hx⟩
  · rename_i k hk
    exact ⟨_, rfl, Binary64.div_isFinite (Binary64.floor_isFinite hk) hn⟩

theorem scientific_ok {digits : Int} (low : 0 ≤ digits) (high : digits ≤ 16) {x : Binary64}
    (hx : x.isFinite = true) : ∃ s, scientific? digits x = .ok s := by
  rcases x with _ | _ | ⟨s, m⟩ <;> simp only [Binary64.isFinite, Bool.false_eq_true] at hx
  unfold scientific?
  rw [if_neg (by omega), if_neg (by omega), if_neg (by omega)]
  exact ⟨_, rfl⟩

theorem layout_ok {p : Params} (valid : p.Valid) {x : Binary64} (hx : x.isFinite = true) :
    ∃ text, layout p x = .ok text := by
  unfold layout shortened
  split
  · exact ⟨_, rfl⟩
  · obtain ⟨s, hs⟩ := scientific_ok valid.2.2.2.1 valid.2.2.2.2.1 hx
    rw [hs]
    exact ⟨_, rfl⟩

/-- With the settings of a panel every number has a text. -/
theorem format_ok {p : Params} (valid : p.Valid) (x : Option Binary64) :
    ∃ text, format p x = .ok text := by
  rcases x with _ | x
  · exact ⟨_, rfl⟩
  · simp only [format]
    split
    · rename_i hx
      obtain ⟨y, hy, finite⟩ := rounded_ok valid hx
      rw [hy]
      exact layout_ok valid finite
    · exact ⟨_, rfl⟩

theorem format_eq_shown (p : Panel) (x : Option Binary64) :
    format p.params x = .ok (p.shown x) := by
  obtain ⟨text, h⟩ := format_ok p.valid x
  simp [Panel.shown, h]

end DeskCalculator.Display
