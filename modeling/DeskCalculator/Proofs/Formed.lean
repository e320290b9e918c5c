import DeskCalculator.Expr.Token
import DeskCalculator.Proofs.ReadBack

/-!
# The form of a numeral

A text is taken for a numeral in one pass from the left. `Formed` has no direction: it says of
what parts a numeral is put together, and the decimal that they stand for. The two admit the
same texts, and free text takes each of them for its decimal: `ofNumeral_iff_formed`.
-/

namespace DeskCalculator.Numeral
open Number Text

/-- The number that digits of any script form. -/
def count (ds : List Char) : Nat := ds.foldl (fun n c => 10 * n + (digit? c).getD 0) 0

/-- Digits with an optional point among or behind them, or a point in front of digits; the
digits before the point, and those behind it. -/
inductive Mantissa : List Char → List Char → List Char → Prop
  | whole {ds : List Char} (some : ds ≠ []) (digits : ∀ c ∈ ds, isDigit c = true) :
      Mantissa ds ds []
  | pointed {ds places : List Char} (some : ds ≠ []) (digits : ∀ c ∈ ds, isDigit c = true)
      (behind : ∀ c ∈ places, isDigit c = true) : Mantissa (ds ++ '.' :: places) ds places
  | bare {places : List Char} (some : places ≠ []) (behind : ∀ c ∈ places, isDigit c = true) :
      Mantissa ('.' :: places) [] places

/-- Nothing, or e or E, a sign or none, and digits; the power of ten. -/
inductive Exponent : List Char → Int → Prop
  | absent : Exponent [] 0
  | unsigned {mark : Char} {ds : List Char} (letter : mark = 'e' ∨ mark = 'E') (some : ds ≠ [])
      (digits : ∀ c ∈ ds, isDigit c = true) : Exponent (mark :: ds) (count ds)
  | plus {mark : Char} {ds : List Char} (letter : mark = 'e' ∨ mark = 'E') (some : ds ≠ [])
      (digits : ∀ c ∈ ds, isDigit c = true) : Exponent (mark :: '+' :: ds) (count ds)
  | minus {mark : Char} {ds : List Char} (letter : mark = 'e' ∨ mark = 'E') (some : ds ≠ [])
      (digits : ∀ c ∈ ds, isDigit c = true) : Exponent (mark :: '-' :: ds) (-count ds)

/-- A minus or none, a mantissa and an exponent; the decimal they stand for. -/
inductive Formed : List Char → Decimal → Prop
  | mk (negative : Bool) {text whole places tail : List Char} {e : Int}
      (mantissa : Mantissa text whole places) (exponent : Exponent tail e) :
      Formed (sign negative ++ (text ++ tail))
        ⟨negative, count (whole ++ places), e - places.length⟩

/-! The form is what the pass from the left looks for -/

theorem isDigits_iff {ds : List Char} :
    isDigits ds = true ↔ ds ≠ [] ∧ ∀ c ∈ ds, isDigit c = true := by
  simp [isDigits]

theorem dropSign_of_digits {ds : List Char} (h : ∀ c ∈ ds, isDigit c = true) :
    dropSign ds = ds := by
  have letter : isDigit '+' = false ∧ isDigit '-' = false := by decide
  apply dropSign.eq_3
  · rintro rest rfl
    have digit := h '+' List.mem_cons_self
    simp [letter] at digit
  · rintro rest rfl
    have digit := h '-' List.mem_cons_self
    simp [letter] at digit

theorem Exponent.accepted {tail : List Char} {e : Int} (h : Exponent tail e) :
    isExponent tail = true := by
  cases h with
  | absent => rfl
  | unsigned letter some digits =>
    simpa [isExponent, dropSign_of_digits digits, isDigits_iff, some] using ⟨letter, digits⟩
  | plus letter some digits | minus letter some digits =>
    simpa [isExponent, dropSign, isDigits_iff, some] using ⟨letter, digits⟩

theorem exponent_of_accepted {tail : List Char} (h : isExponent tail = true) :
    ∃ e, Exponent tail e := by
  cases tail with
  | nil => exact ⟨0, .absent⟩
  | cons mark rest =>
    obtain ⟨letter, digits⟩ := Bool.and_eq_true_iff.mp h
    have letter : mark = 'e' ∨ mark = 'E' := by simpa using letter
    unfold dropSign at digits
    split at digits
    · obtain ⟨some, digits⟩ := isDigits_iff.mp digits
      exact ⟨_, .plus letter some digits⟩
    · obtain ⟨some, digits⟩ := isDigits_iff.mp digits
      exact ⟨_, .minus letter some digits⟩
    · obtain ⟨some, digits⟩ := isDigits_iff.mp digits
      exact ⟨_, .unsigned letter some digits⟩

theorem Mantissa.accepted {text whole places tail : List Char} (h : Mantissa text whole places)
    (exponent : isExponent tail = true) : isUnsigned (text ++ tail) = true := by
  cases h with
  | whole some digits => exact isUnsigned_whole some digits exponent
  | pointed some digits behind =>
    rw [List.append_assoc, List.cons_append]
    exact isUnsigned_pointed some digits behind exponent
  | bare some behind =>
    obtain ⟨front, back⟩ := span_append behind fun c hc => (isExponent_head exponent c hc).2
    have point : isDigit '.' = false := by decide
    simp [isUnsigned, point, front, back, some, exponent]

theorem Formed.accepted {cs : List Char} {d : Decimal} (h : Formed cs d) : accepts cs = true := by
  cases h with
  | mk negative mantissa exponent => exact accepts_sign (mantissa.accepted exponent.accepted)

theorem takeWhile_digits (cs : List Char) : ∀ c ∈ cs.takeWhile isDigit, isDigit c = true :=
  fun c hc => List.all_eq_true.mp List.all_takeWhile c hc

theorem parts_of_isUnsigned {cs : List Char} (h : isUnsigned cs = true) :
    ∃ text whole places tail, cs = text ++ tail ∧ Mantissa text whole places ∧
      isExponent tail = true := by
  have parts := List.takeWhile_append_dropWhile (p := isDigit) (l := cs)
  have digits := takeWhile_digits cs
  unfold isUnsigned at h
  split at h
  · rename_i rest point
    have behind := takeWhile_digits rest
    have later := List.takeWhile_append_dropWhile (p := isDigit) (l := rest)
    obtain ⟨some, exponent⟩ := Bool.and_eq_true_iff.mp h
    rw [point] at parts
    generalize cs.takeWhile isDigit = ds at *
    generalize rest.takeWhile isDigit = places at *
    generalize rest.dropWhile isDigit = tail at *
    subst later parts
    by_cases none : ds = []
    · subst none
      have some : places ≠ [] := by simpa using some
      exact ⟨_, _, _, tail, rfl, .bare some behind, exponent⟩
    · exact ⟨ds ++ '.' :: places, _, _, tail, by simp, .pointed none digits behind, exponent⟩
  · obtain ⟨some, exponent⟩ := Bool.and_eq_true_iff.mp h
    have some : cs.takeWhile isDigit ≠ [] := by simpa using some
    exact ⟨_, _, _, _, parts.symm, .whole some digits, exponent⟩

theorem formed_of_accepted {cs : List Char} (h : accepts cs = true) : ∃ d, Formed cs d := by
  obtain ⟨negative, rest, rfl, unsigned⟩ :
      ∃ negative rest, cs = sign negative ++ rest ∧ isUnsigned rest = true := by
    unfold accepts at h
    split at h
    · exact ⟨true, _, rfl, h⟩
    · exact ⟨false, cs, rfl, h⟩
  obtain ⟨text, whole, places, tail, rfl, mantissa, exponent⟩ := parts_of_isUnsigned unsigned
  obtain ⟨e, exponent⟩ := exponent_of_accepted exponent
  exact ⟨_, .mk negative mantissa exponent⟩

theorem accepts_iff_formed (cs : List Char) : accepts cs = true ↔ ∃ d, Formed cs d :=
  ⟨formed_of_accepted, fun ⟨_, formed⟩ => formed.accepted⟩

/-! Free text takes a numeral for the decimal of its parts -/

theorem digit_inAscii {c : Char} (h : isDigit c = true) :
    (inAscii c).toNat - '0'.toNat = (digit? c).getD 0 := by
  obtain ⟨d, found⟩ := Option.isSome_iff_exists.mp h
  have all : ∀ d < 10, (Char.ofNat ('0'.toNat + d)).toNat - '0'.toNat = d := by decide
  simpa [inAscii, found] using all d (digit?_spec found).1

theorem natOf_inAscii {ds : List Char} (h : ∀ c ∈ ds, isDigit c = true) :
    natOf (ds.map inAscii) = count ds := by
  have from_ (n : Nat) : Nat.ofDigitChars 10 (ds.map inAscii) n =
      ds.foldl (fun n c => 10 * n + (digit? c).getD 0) n := by
    induction ds generalizing n with
    | nil => rfl
    | cons c rest ih =>
      rw [List.map_cons, Nat.ofDigitChars_cons, digit_inAscii (h c List.mem_cons_self)]
      exact ih (fun c hc => h c (List.mem_cons_of_mem _ hc)) _
  exact from_ 0

theorem digits_inAscii {ds : List Char} (h : ∀ c ∈ ds, isDigit c = true) :
    ∀ c ∈ ds.map inAscii, c.isDigit = true := by
  intro c hc
  obtain ⟨x, hx, rfl⟩ := List.mem_map.mp hc
  rw [isDigit_inAscii, h x hx]

theorem Exponent.read {tail : List Char} {e : Int} (h : Exponent tail e) :
    exponent? (tail.map inAscii) = some e := by
  have letter_inAscii {mark : Char} (letter : mark = 'e' ∨ mark = 'E') :
      inAscii mark = mark := by
    rcases letter with rfl | rfl <;> decide
  have signs : inAscii '+' = '+' ∧ inAscii '-' = '-' := by decide
  cases h with
  | absent => rfl
  | unsigned letter some digits =>
    have number := exponent?_digits letter (by simpa using some) (digits_inAscii digits)
    rw [List.map_cons, letter_inAscii letter, number.1, natOf_inAscii digits]
  | plus letter some digits =>
    have number := exponent?_digits letter (by simpa using some) (digits_inAscii digits)
    rw [List.map_cons, List.map_cons, letter_inAscii letter, signs.1, number.2.1,
      natOf_inAscii digits]
  | minus letter some digits =>
    have number := exponent?_digits letter (by simpa using some) (digits_inAscii digits)
    rw [List.map_cons, List.map_cons, letter_inAscii letter, signs.2, number.2.2,
      natOf_inAscii digits]

theorem Mantissa.read {text whole places tail : List Char} (h : Mantissa text whole places)
    {e : Int} (exponent : Exponent tail e) (negative : Bool) :
    decimal? negative ((text ++ tail).map inAscii) =
      some ⟨negative, count (whole ++ places), e - places.length⟩ := by
  have point : inAscii '.' = '.' := by decide
  cases h with
  | whole some digits =>
    rw [List.map_append, decimal?_whole (by simpa using some) (digits_inAscii digits)
      exponent.read, natOf_inAscii digits]
    simp
  | pointed some digits behind =>
    have number : natOf (whole.map inAscii ++ places.map inAscii) = count (whole ++ places) := by
      rw [← List.map_append]
      exact natOf_inAscii (List.forall_mem_append.mpr ⟨digits, behind⟩)
    rw [List.append_assoc, List.map_append, List.cons_append, List.map_cons, List.map_append, point,
      decimal?_pointed (by simpa using some) (digits_inAscii digits) (digits_inAscii behind)
        exponent.read, number, List.length_map]
  | bare some behind =>
    rw [List.cons_append, List.map_cons, List.map_append, point,
      decimal?_bare (by simpa using some) (digits_inAscii behind) exponent.read,
      natOf_inAscii behind, List.length_map, List.nil_append]

theorem Formed.read {s : String} {d : Decimal} (h : Formed s.toList d) :
    read? s = some d.nearest := by
  rw [read?_of_glyphs (accepts_glyphs h.accepted)]
  generalize s.toList = cs at *
  cases h with
  | mk negative mantissa exponent =>
    have same : (sign negative).map inAscii = sign negative := by cases negative <;> decide
    rw [List.map_append, same]
    exact signed?_of_decimal? (mantissa.read exponent negative)

end DeskCalculator.Numeral

namespace DeskCalculator.Expr.Token
open Number Numeral

/-- **A text makes a number token just when it has the form of a numeral.** Free text then takes
it for the decimal that its parts stand for, and the token has that value, which is not nan. -/
theorem ofNumeral_iff_formed (s : String) :
    ((∃ t, ofNumeral s = .ok t) ↔ ∃ d, Formed s.toList d) ∧
      (∀ d, Formed s.toList d → ∃ n : Numeral, ofNumeral s = .ok (.number n) ∧ n.text = s ∧
        read? s = some d.nearest ∧ n.value = d.nearest ∧ n.value.isNan = false) ∧
      ((∀ d, ¬ Formed s.toList d) → ofNumeral s = .error (.notNumeral s)) := by
  have made {d : Decimal} (h : Formed s.toList d) :
      ofNumeral s = .ok (.number ⟨s, h.accepted⟩) := by
    simp [ofNumeral, ofText?, h.accepted]
  have refused (h : ∀ d, ¬ Formed s.toList d) : ofNumeral s = .error (.notNumeral s) := by
    have other : ¬ accepts s.toList = true :=
      mt (accepts_iff_formed _).mp (not_exists.mpr h)
    simp [ofNumeral, ofText?, other]
  refine ⟨⟨?_, fun ⟨_, h⟩ => ⟨_, made h⟩⟩, ?_, refused⟩
  · rintro ⟨t, ok⟩
    apply Classical.byContradiction
    intro none
    rw [refused (not_exists.mp none)] at ok
    cases ok
  · intro d h
    have value : Numeral.value ⟨s, h.accepted⟩ = d.nearest := by simp [Numeral.value, h.read]
    exact ⟨_, made h, rfl, h.read, value, value ▸ d.isNan_nearest⟩

/-- Digits of two scripts, on both sides of a point, and an exponent. -/
theorem ofNumeral_two_scripts :
    ∃ n : Numeral, ofNumeral "-٣.5E+02" = .ok (.number n) ∧ n.text = "-٣.5E+02" ∧
      n.value = Decimal.nearest ⟨true, 350, 0⟩ := by
  have mantissa : Mantissa ['٣', '.', '5'] ['٣'] ['5'] :=
    .pointed (List.cons_ne_nil _ []) (List.forall_mem_singleton.mpr (by decide))
      (List.forall_mem_singleton.mpr (by decide))
  have exponent : Exponent ['E', '+', '0', '2'] 2 :=
    .plus (.inr rfl) (List.cons_ne_nil _ ['2'])
      (List.forall_mem_cons.mpr ⟨by decide, List.forall_mem_singleton.mpr (by decide)⟩)
  have form : Formed "-٣.5E+02".toList ⟨true, 35, 2 - 1⟩ := .mk true mantissa exponent
  obtain ⟨n, made, text, -, value, -⟩ := (ofNumeral_iff_formed "-٣.5E+02").2.1 _ form
  exact ⟨n, made, text, value.trans (by decide +kernel)⟩

end DeskCalculator.Expr.Token
