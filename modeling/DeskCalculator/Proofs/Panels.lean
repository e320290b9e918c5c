import DeskCalculator.Proofs.Width

/-!
# Finite numbers on any panel

Whatever the settings of a panel, a finite number has a text that is a numeral and reads as
a finite number, with one exception: a number past the edge of its places, on a panel too
narrow for all its digits, is shown as an infinity, or as digits that read as one
(`format_finite`).
-/

namespace DeskCalculator.Display
open Number Numeral

/-- Past an edge all numbers have as many digits. -/
theorem length_plain_of_edge {k : Fin 17} {m : Magnitude} (past : edge k < m.units) (s : Bool) :
    (plain (.finite s m)).length = s.toNat + 309 := by
  obtain ⟨-, -, -, -, far, low⟩ := edge_spec k
  have large := roundable_bounds.1
  have top : largest * five < 10 ^ (1074 + (308 + 1)) := by
    have below := Nat.mul_lt_mul_of_pos_right holds_largest.1 five_pos
    have high := largest_bounds.2
    rw [← Nat.add_assoc]
    omega
  have scaled := Nat.mul_le_mul_right five (Nat.le_of_lt past)
  apply length_plain
  · exact Binary64.one_dvd (by omega)
  · exact Nat.le_trans low (Nat.mul_le_mul_left _ scaled)
  · exact Nat.lt_of_le_of_lt (coarsest_le_largest (Nat.ne_of_gt (Nat.zero_lt_of_lt past))) top

/-- A number overflows on a panel if it is past the edge of the panel's places, and the panel
is too narrow for its digits. -/
def Overflows (p : Params) (s : Bool) (m : Magnitude) : Prop :=
  edge p.exponentDigits.toNat < m.units ∧ p.maxLength < s.toNat + 309

theorem Params.Valid.places {p : Params} (valid : p.Valid) :
    ∃ d : Fin 16, p.roundDigits = d.val :=
  ⟨⟨p.roundDigits.toNat, by have := valid.2; omega⟩, by have := valid.2; simp; omega⟩

theorem Params.Valid.mantissa {p : Params} (valid : p.Valid) :
    ∃ k : Fin 17, p.exponentDigits.toNat = k :=
  ⟨⟨p.exponentDigits.toNat, by have := valid.2.2.2; omega⟩, rfl⟩

/-- What is rounded is far from overflowing. -/
theorem not_overflows {p : Params} (valid : p.Valid) {m : Magnitude}
    (small : m.units ≤ roundable) (s : Bool) : ¬ Overflows p s m := by
  obtain ⟨k, digits⟩ := valid.mantissa
  have wide := (edge_spec k).far
  rintro ⟨past, -⟩
  rw [digits] at past
  exact absurd past (Nat.not_lt.mpr (Nat.le_trans small wide))

theorem scientific?_eq {p : Params} (valid : p.Valid) (s : Bool) (m : Magnitude) :
    scientific? p.exponentDigits (.finite s m) =
      .ok (significant p.exponentDigits.toNat s m) := by
  obtain ⟨-, -, -, low, high, -⟩ := valid
  unfold scientific?
  rw [if_neg (by omega), if_neg (by omega), if_neg (by omega)]

theorem read?_layout {p : Params} (valid : p.Valid) {s : Bool} {m : Magnitude} {text : String}
    (h : layout p (.finite s m) = .ok text) :
    (Overflows p s m → read? text = some (.infinity s)) ∧
    (¬ Overflows p s m → accepts text.toList = true ∧
      ∃ y, read? text = some y ∧ y.isFinite = true) := by
  have digits := scientific?_eq valid s m
  obtain ⟨k, places⟩ := valid.mantissa
  obtain ⟨beyond, below⟩ := significant_edge k s m
  unfold Overflows
  rw [places] at digits ⊢
  unfold layout shortened at h
  rw [digits] at h
  simp only [bind, Except.bind] at h
  constructor
  · rintro ⟨past, narrow⟩
    have spread : fits p (plain (.finite s m)) = false := by
      simp only [fits, decide_eq_false_iff_not, length_plain_of_edge past s]
      omega
    rw [spread, if_neg Bool.false_ne_true] at h
    rw [← Except.ok.inj h]
    split
    · rw [beyond past, read?_plain]
      rfl
    · rw [read?_scientific, beyond past]
  · intro held
    split at h
    · rw [← Except.ok.inj h]
      exact ⟨accepts_plain rfl, _, read?_plain _, by rw [Binary64.isFinite_unsignZero]; rfl⟩
    · rename_i spread
      have low : m.units ≤ edge k := by
        apply Nat.le_of_not_lt
        intro past
        apply held
        refine ⟨past, ?_⟩
        simp only [fits, decide_eq_true_eq, length_plain_of_edge past s] at spread
        omega
      have finite := below low
      rw [← Except.ok.inj h]
      split
      · exact ⟨accepts_plain finite, _, read?_plain _, by
          rw [Binary64.isFinite_unsignZero]; exact finite⟩
      · exact ⟨accepts_scientific _, _, read?_scientific _, finite⟩

/-- **A finite number is shown as one,** unless it overflows on the panel: then its text reads
as an infinity. -/
theorem format_finite {p : Params} (valid : p.Valid) (s : Bool) (m : Magnitude) :
    ∃ text, format p (some (.finite s m)) = .ok text ∧
      (Overflows p s m → read? text = some (.infinity s)) ∧
      (¬ Overflows p s m → accepts text.toList = true ∧
        ∃ y, read? text = some y ∧ y.isFinite = true) := by
  obtain ⟨y, rounds, -, laid⟩ := layout_eq_shown ⟨p, valid⟩ (x := .finite s m) rfl
  refine ⟨_, format_eq_shown ⟨p, valid⟩ _, ?_⟩
  dsimp only at rounds laid
  obtain ⟨d, places⟩ := valid.places
  rw [places] at rounds
  rcases rounded_eq_or rounds with rfl | ⟨low, t, k, rfl, small⟩
  · exact read?_layout valid laid
  · have shown := (read?_layout valid laid).2 (not_overflows valid small t)
    exact ⟨fun past => absurd past (not_overflows valid low s), fun _ => shown⟩

theorem brink_lt_largest : brink < Magnitude.units ⟨largest, holds_largest⟩ := by decide +kernel

/-- A display of 309 characters has room for the largest number, but not for its negative. -/
theorem format_largest_negative :
    let p : Params := ⟨309, 12, 10, "Error"⟩
    let m : Magnitude := ⟨largest, holds_largest⟩
    p.Valid ∧ ∃ text, format p (some (.finite true m)) = .ok text ∧
      read? text = some (.infinity true) := by
  intro p m
  have valid : p.Valid := by decide
  obtain ⟨text, shown, overflowed, -⟩ := format_finite valid true m
  have digits : p.exponentDigits.toNat = 10 := rfl
  have past : Overflows p true m := by
    rw [Overflows, digits, edge_ten]
    exact ⟨brink_lt_largest, by decide⟩
  exact ⟨valid, text, shown, overflowed past⟩

/-- The largest number is shown as an infinity. -/
theorem not_format_finite :
    ¬ ∀ (p : Params) (x : Binary64), p.Valid → x.isFinite = true →
      ∃ text, format p (some x) = .ok text ∧ accepts text.toList = true ∧
        ∃ y, read? text = some y ∧ y.isFinite = true := by
  intro claimed
  have finite (m : Magnitude) : (Binary64.finite false m).isFinite = true := rfl
  obtain ⟨text, shown, accepted, -⟩ :=
    claimed _ _ Panel.standard.valid (finite ⟨largest, holds_largest⟩)
  have named := (namesInfinity_shown_iff false ⟨largest, holds_largest⟩).mpr brink_lt_largest
  have same := Except.ok.inj (shown.symm.trans (format_eq_shown .standard _))
  rw [← same, not_namesInfinity accepted] at named
  cases named

end DeskCalculator.Display
