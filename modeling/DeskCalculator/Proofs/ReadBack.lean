import DeskCalculator.Proofs.Writing

/-!
# What is written reads back

The digits of a number read as that number, and a text of digits with a point and
an exponent as the decimal it stands for: `read?_pointed`, `read?_whole`. So the
plain and the scientific form of a number read as decimals with its digits.
-/

namespace DeskCalculator.Numeral
open Number Text

/-- What an exponent starts with is no digit and no point. -/
theorem exponent?_head {cs : List Char} {e : Int} (h : exponent? cs = some e) :
    ∀ c ∈ cs.head?, c.isDigit = false ∧ c ≠ '.' := by
  intro c hc
  cases cs with
  | nil => cases hc
  | cons x rest =>
    obtain rfl : x = c := Option.some.inj hc
    by_cases mark : x = 'e' ∨ x = 'E'
    · rcases mark with rfl | rfl <;> decide
    · unfold exponent? at h
      dsimp only at h
      rw [if_neg mark] at h
      cases h

theorem decimal?_whole {ds exponent : List Char} {e : Int} (some : ds ≠ [])
    (digits : ∀ c ∈ ds, c.isDigit = true) (h : exponent? exponent = .some e) (negative : Bool) :
    decimal? negative (ds ++ exponent) = .some ⟨negative, natOf ds, e⟩ := by
  obtain ⟨front, back⟩ := span_append digits fun c hc => (exponent?_head h c hc).1
  unfold decimal?
  rw [front, back]
  split
  rename_i fraction rest parts
  split at parts
  · exact absurd rfl (exponent?_head h '.' rfl).2
  · cases parts
    simp [some, h]

theorem decimal?_pointed {ds places exponent : List Char} {e : Int} (some : ds ≠ [])
    (digits : ∀ c ∈ ds, c.isDigit = true) (behind : ∀ c ∈ places, c.isDigit = true)
    (h : exponent? exponent = .some e) (negative : Bool) :
    decimal? negative (ds ++ '.' :: (places ++ exponent)) =
      .some ⟨negative, natOf (ds ++ places), e - places.length⟩ := by
  have point : ∀ c ∈ ('.' :: (places ++ exponent)).head?, c.isDigit = false := by
    intro c hc
    obtain rfl : '.' = c := Option.some.inj hc
    decide
  obtain ⟨front, back⟩ := span_append digits point
  obtain ⟨between, last⟩ := span_append behind fun c hc => (exponent?_head h c hc).1
  unfold decimal?
  rw [front, back]
  simp only [between, last, h, Option.map_some]
  simp [some]

theorem decimal?_bare {places exponent : List Char} {e : Int} (some : places ≠ [])
    (behind : ∀ c ∈ places, c.isDigit = true) (h : exponent? exponent = .some e)
    (negative : Bool) :
    decimal? negative ('.' :: (places ++ exponent)) =
      .some ⟨negative, natOf places, e - places.length⟩ := by
  obtain ⟨between, last⟩ := span_append behind fun c hc => (exponent?_head h c hc).1
  have point : '.'.isDigit = false := by decide
  simp [decimal?, point, between, last, h, some]

theorem decimal?_mantissa {ds exponent : List Char} {e : Int} (some : ds ≠ [])
    (digits : ∀ c ∈ ds, c.isDigit = true) (h : exponent? exponent = .some e) (negative : Bool)
    (places : Nat) :
    decimal? negative (mantissa places ds ++ exponent) =
      .some ⟨negative, natOf ds, e - places⟩ := by
  unfold mantissa
  split
  · rename_i none
    rw [decimal?_whole some digits h, none, Int.natCast_zero, Int.sub_zero]
  · obtain ⟨whole, behind, parts, filled, front, back, count, all⟩ := pointed_parts places digits
    rw [parts, List.append_assoc, List.cons_append, decimal?_pointed filled front back h,
      all, natOf_padded, count]

/-- A character that reading takes as it is. -/
def isClean (c : Char) : Bool := isGlyph c && c.toNat < 0x80

theorem isClean_digit {c : Char} (h : c.isDigit = true) : isClean c = true := by
  have glyph : isGlyph c = true := by simp [isGlyph, isDigit_of_ascii h]
  rw [Char.isDigit_iff_toNat] at h
  have high : c.toNat ≤ 57 := h.2
  simp only [isClean, glyph, Bool.true_and, decide_eq_true_eq]
  omega

theorem isClean_signedExponent (e : Int) : ∀ c ∈ 'e' :: signedExponent e, isClean c = true := by
  intro c hc
  unfold signedExponent at hc
  rcases List.mem_cons.mp hc with rfl | hc
  · decide
  · rcases List.mem_cons.mp hc with rfl | hc
    · split <;> decide
    · exact isClean_digit (digits_isDigit _ c hc)

/-- Digits behind the mark of an exponent, with a sign or none, are its number. -/
theorem exponent?_digits {mark : Char} (letter : mark = 'e' ∨ mark = 'E') {ds : List Char}
    (some : ds ≠ []) (digits : ∀ c ∈ ds, c.isDigit = true) :
    exponent? (mark :: ds) = .some (natOf ds) ∧ exponent? (mark :: '+' :: ds) = .some (natOf ds) ∧
      exponent? (mark :: '-' :: ds) = .some (-natOf ds) := by
  have filled : (ds.isEmpty || !ds.all Char.isDigit) = false := by
    rw [List.all_eq_true.mpr digits]
    simp [some]
  have first (x : Char) (other : x.isDigit = false) (rest : List Char) : ds ≠ x :: rest := by
    rintro rfl
    rw [digits x List.mem_cons_self] at other
    cases other
  refine ⟨?_, ?_, ?_⟩
  · unfold exponent?
    dsimp only
    rw [if_pos letter]
    split
    · exact absurd rfl (first '-' (by decide) _)
    · exact absurd rfl (first '+' (by decide) _)
    · simp [filled]
  · simp [exponent?, letter, filled]
  · simp [exponent?, letter, filled]

theorem exponent?_signedExponent (e : Int) : exponent? ('e' :: signedExponent e) = some e := by
  have some : digits e.natAbs ≠ [] := Nat.toDigits_ne_nil
  obtain ⟨-, plus, minus⟩ := exponent?_digits (.inl rfl) some (digits_isDigit _)
  rw [natOf_digits] at plus minus
  unfold signedExponent
  split
  · rw [minus]
    congr 1
    omega
  · rw [plus]
    congr 1
    omega

theorem signed?_of_decimal? {negative : Bool} {cs : List Char} {d : Decimal}
    (h : decimal? negative cs = some d) : signed? (sign negative ++ cs) = some d.nearest := by
  cases negative with
  | true => exact unsigned?_of_decimal? h
  | false =>
    have unsigned (x : Char) (letter : x.isDigit = false ∧ x ≠ '.') (rest : List Char) :
        cs ≠ x :: rest := by
      rintro rfl
      rw [decimal?_of_letter letter.1 letter.2] at h
      cases h
    change signed? cs = _
    rw [signed?.eq_3 cs (unsigned '-' (by decide)) (unsigned '+' (by decide))]
    exact unsigned?_of_decimal? h

/-- A text of clean characters reads as its decimal, with the sign in front. -/
theorem read?_of_decimal? {negative : Bool} {cs : List Char} {d : Decimal}
    (clean : ∀ c ∈ cs, isClean c = true) (h : decimal? negative cs = some d) :
    read? (.ofList (sign negative ++ cs)) = some d.nearest := by
  have all : ∀ c ∈ sign negative ++ cs, isGlyph c = true ∧ c.toNat < 0x80 := by
    intro c hc
    have clean : isClean c = true := by
      rcases List.mem_append.mp hc with hc | hc
      · cases negative with
        | true => rw [List.mem_singleton.mp hc]; decide
        | false => cases hc
      · exact clean c hc
    simpa [isClean] using clean
  have same : (sign negative ++ cs).map inAscii = (sign negative ++ cs).map id :=
    List.map_congr_left fun c hc => inAscii_of_lt (all c hc).2
  rw [read?_of_glyphs (by rw [String.toList_ofList]; exact fun c hc => (all c hc).1),
    String.toList_ofList, same, List.map_id]
  exact signed?_of_decimal? h

theorem read?_whole {ds exponent : List Char} {e : Int} (some : ds ≠ [])
    (digits : ∀ c ∈ ds, c.isDigit = true) (clean : ∀ c ∈ exponent, isClean c = true)
    (h : exponent? exponent = .some e) (negative : Bool) :
    read? (.ofList (sign negative ++ (ds ++ exponent))) =
      .some (Decimal.nearest ⟨negative, natOf ds, e⟩) := by
  apply read?_of_decimal? _ (decimal?_whole some digits h negative)
  intro c hc
  rcases List.mem_append.mp hc with hc | hc
  · exact isClean_digit (digits c hc)
  · exact clean c hc

theorem read?_pointed {ds places exponent : List Char} {e : Int} (some : ds ≠ [])
    (digits : ∀ c ∈ ds, c.isDigit = true) (behind : ∀ c ∈ places, c.isDigit = true)
    (clean : ∀ c ∈ exponent, isClean c = true) (h : exponent? exponent = .some e)
    (negative : Bool) :
    read? (.ofList (sign negative ++ (ds ++ '.' :: (places ++ exponent)))) =
      .some (Decimal.nearest ⟨negative, natOf (ds ++ places), e - places.length⟩) := by
  apply read?_of_decimal? _ (decimal?_pointed some digits behind h negative)
  intro c hc
  rcases List.mem_append.mp hc with hc | hc
  · exact isClean_digit (digits c hc)
  · rcases List.mem_cons.mp hc with rfl | hc
    · decide
    · rcases List.mem_append.mp hc with hc | hc
      · exact isClean_digit (behind c hc)
      · exact clean c hc

/-- **Scientific form reads back** as the decimal it was written for. -/
theorem read?_scientific (s : Scientific) : read? (scientific s) = some s.decimal.nearest := by
  have clean := isClean_signedExponent s.exponent
  have exponent := exponent?_signedExponent s.exponent
  have ours := digits_isDigit s.coefficient
  have filled : digits s.coefficient ≠ [] := Nat.toDigits_ne_nil
  rw [scientific, List.append_assoc]
  unfold mantissa
  split
  · rename_i whole
    rw [read?_whole filled ours clean exponent, natOf_digits, Scientific.decimal, whole]
    rw [Int.natCast_zero, Int.sub_zero]
  · obtain ⟨whole, behind, parts, some, front, back, count, all⟩ := pointed_parts s.places ours
    rw [parts, List.append_assoc, List.cons_append, read?_pointed some front back clean exponent,
      all, natOf_padded, natOf_digits, count]
    rfl

end DeskCalculator.Numeral
