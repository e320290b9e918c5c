import DeskCalculator.Display.Faultless
import DeskCalculator.Proofs.Reading

/-!
# How numbers are written

`Simple` texts have digits, at most one point and no exponent; they are what is
typed, and what a finite number is in plain form. They and the scientific form
are numerals. A panel may also write the name of an infinity for a finite
number: `legible_shown` says that it writes nothing else.
-/

namespace DeskCalculator.Numeral
open Number Text

/-- Digits, with at most one point behind or among them and perhaps a minus; the
number they form, and how many of them are behind the point. -/
inductive Simple : List Char → Nat → Nat → Prop
  | whole (negative : Bool) {ds : List Char} (some : ds ≠ [])
      (digits : ∀ c ∈ ds, c.isDigit = true) : Simple (sign negative ++ ds) (natOf ds) 0
  | pointed (negative : Bool) {ds places : List Char} (some : ds ≠ [])
      (digits : ∀ c ∈ ds, c.isDigit = true) (behind : ∀ c ∈ places, c.isDigit = true) :
      Simple (sign negative ++ (ds ++ '.' :: places)) (natOf (ds ++ places)) places.length

/-- The start of the name of an infinity, with whatever follows. -/
def namesInfinity : List Char → Bool
  | 'I' :: _ | '-' :: 'I' :: _ => true
  | _ => false

/-- Characters of a kind in front of another are split off as they are. -/
theorem span_append {p : Char → Bool} {front rest : List Char} (kind : ∀ c ∈ front, p c = true)
    (stop : ∀ c ∈ rest.head?, p c = false) :
    (front ++ rest).takeWhile p = front ∧ (front ++ rest).dropWhile p = rest := by
  rw [List.takeWhile_append_of_pos kind, List.dropWhile_append_of_pos kind]
  cases rest with
  | nil => simp
  | cons c rest => simp [stop c rfl]

theorem isDigit_of_ascii_digits {ds : List Char} (h : ∀ c ∈ ds, c.isDigit = true) :
    ∀ c ∈ ds, Text.isDigit c = true := fun c hc => isDigit_of_ascii (h c hc)

theorem isExponent_head {cs : List Char} (h : isExponent cs = true) :
    ∀ c ∈ cs.head?, c ≠ '.' ∧ Text.isDigit c = false := by
  cases cs with
  | nil => intro c hc; cases hc
  | cons x rest =>
    intro c hc
    obtain rfl : x = c := Option.some.inj hc
    have mark := (Bool.and_eq_true_iff.mp h).1
    simp only [Bool.or_eq_true, beq_iff_eq] at mark
    rcases mark with rfl | rfl <;> decide

theorem isUnsigned_whole {ds exponent : List Char} (some : ds ≠ [])
    (digits : ∀ c ∈ ds, Text.isDigit c = true) (h : isExponent exponent = true) :
    isUnsigned (ds ++ exponent) = true := by
  obtain ⟨front, back⟩ := span_append digits fun c hc => (isExponent_head h c hc).2
  rw [isUnsigned, front, back]
  split
  · exact absurd rfl (isExponent_head h '.' rfl).1
  · simp [some, h]

theorem isUnsigned_pointed {ds places exponent : List Char} (some : ds ≠ [])
    (digits : ∀ c ∈ ds, Text.isDigit c = true) (behind : ∀ c ∈ places, Text.isDigit c = true)
    (h : isExponent exponent = true) :
    isUnsigned (ds ++ '.' :: (places ++ exponent)) = true := by
  have point : ∀ c ∈ ('.' :: (places ++ exponent)).head?, Text.isDigit c = false := by
    intro c hc
    obtain rfl : '.' = c := Option.some.inj hc
    decide
  obtain ⟨front, back⟩ := span_append digits point
  obtain ⟨-, last⟩ := span_append behind fun c hc => (isExponent_head h c hc).2
  simp only [isUnsigned, front, back, last]
  simp [some, h]

theorem accepts_sign {negative : Bool} {cs : List Char} (h : isUnsigned cs = true) :
    accepts (sign negative ++ cs) = true := by
  cases negative with
  | true => exact h
  | false =>
    have minus (rest : List Char) : cs ≠ '-' :: rest := by
      rintro rfl
      have digit : isDigit '-' = false := by decide
      simp [isUnsigned, digit] at h
    exact (accepts.eq_2 cs minus).trans h

theorem Simple.accepts {cs : List Char} {n k : Nat} (h : Simple cs n k) :
    accepts cs = true := by
  cases h with
  | whole negative some digits =>
    have unsigned := isUnsigned_whole some (isDigit_of_ascii_digits digits)
      (show isExponent [] = true from rfl)
    rw [List.append_nil] at unsigned
    exact accepts_sign unsigned
  | pointed negative some digits behind =>
    have unsigned := isUnsigned_pointed some (isDigit_of_ascii_digits digits)
      (isDigit_of_ascii_digits behind) (show isExponent [] = true from rfl)
    rw [List.append_nil] at unsigned
    exact accepts_sign unsigned

/-! Digits and the numbers they stand for -/

theorem natOf_append (a b : List Char) : natOf (a ++ b) = natOf a * 10 ^ b.length + natOf b := by
  unfold natOf
  rw [Nat.ofDigitChars_append, Nat.ofDigitChars_eq_ofDigitChars_zero, Nat.mul_comm]

theorem natOf_digits (n : Nat) : natOf (digits n) = n := Nat.ofDigitChars_ten_toDigits

theorem natOf_zeros (n : Nat) : natOf (List.replicate n '0') = 0 := by
  unfold natOf
  rw [Nat.ofDigitChars_replicate_zero, Nat.mul_zero]

theorem natOf_padded (width : Nat) (ds : List Char) : natOf (padded width ds) = natOf ds := by
  rw [padded, natOf_append, natOf_zeros, Nat.zero_mul, Nat.zero_add]

theorem natOf_singleton_lt {c : Char} (h : c.isDigit = true) : natOf [c] < 10 := by
  rw [Char.isDigit_iff_toNat] at h
  have high : c.toNat ≤ 57 := h.2
  change 10 * 0 + (c.toNat - 48) < 10
  omega

theorem natOf_lt {ds : List Char} (h : ∀ c ∈ ds, c.isDigit = true) : natOf ds < 10 ^ ds.length := by
  induction ds with
  | nil => decide
  | cons c rest ih =>
    have first := natOf_singleton_lt (h c List.mem_cons_self)
    have later := ih fun d hd => h d (List.mem_cons_of_mem _ hd)
    rw [← List.singleton_append, natOf_append, List.length_append, Nat.pow_add]
    calc natOf [c] * 10 ^ rest.length + natOf rest
        < natOf [c] * 10 ^ rest.length + 10 ^ rest.length := Nat.add_lt_add_left later _
      _ = (natOf [c] + 1) * 10 ^ rest.length := by rw [Nat.succ_mul]
      _ ≤ 10 ^ [c].length * 10 ^ rest.length := Nat.mul_le_mul_right _ first

/-! Typing and taking back -/

theorem Simple.lt_pow_length {cs : List Char} {n k : Nat} (h : Simple cs n k) :
    n < 10 ^ cs.length := by
  cases h with
  | @whole negative ds some digits =>
    apply Nat.lt_of_lt_of_le (natOf_lt digits)
    apply Nat.pow_le_pow_right (by decide)
    simp
  | @pointed negative ds places some digits behind =>
    have all : ∀ c ∈ ds ++ places, c.isDigit = true := by
      intro c hc
      exact (List.mem_append.mp hc).elim (digits c) (behind c)
    apply Nat.lt_of_lt_of_le (natOf_lt all)
    apply Nat.pow_le_pow_right (by decide)
    simp only [List.length_append, List.length_cons]
    omega

theorem simple_singleton {c : Char} (digit : c.isDigit = true) :
    Simple (String.singleton c).toList (natOf [c]) 0 := by
  have digits : ∀ d ∈ [c], d.isDigit = true := by simp [digit]
  rw [String.toList_singleton]
  exact .whole false (List.cons_ne_nil c []) digits

theorem simple_zero_point : Simple "0.".toList (natOf ['0']) 0 := by
  have zero : ∀ c ∈ ['0'], c.isDigit = true := by simp
  have behind : ∀ c ∈ ([] : List Char), c.isDigit = true := by simp
  exact .pointed false (List.cons_ne_nil '0' []) zero behind

theorem Simple.digit {cs : List Char} {n k : Nat} (h : Simple cs n k) {c : Char}
    (hc : c.isDigit = true) : ∃ n' k', Simple (cs ++ [c]) n' k' := by
  have longer {ds : List Char} (digits : ∀ c ∈ ds, c.isDigit = true) :
      ∀ d ∈ ds ++ [c], d.isDigit = true := by
    intro d hd
    rcases List.mem_append.mp hd with hd | hd
    · exact digits d hd
    · rw [List.mem_singleton.mp hd]
      exact hc
  cases h with
  | @whole negative ds some digits =>
    rw [List.append_assoc]
    exact ⟨_, _, .whole negative (by simp) (longer digits)⟩
  | @pointed negative ds places some digits behind =>
    rw [List.append_assoc, List.append_assoc, List.cons_append]
    exact ⟨_, _, .pointed negative some digits (longer behind)⟩

/-- A point behind a number leaves it as it is. -/
theorem Simple.point {cs : List Char} {n k : Nat} (h : Simple cs n k) (none : '.' ∉ cs) :
    Simple (cs ++ ['.']) n k := by
  cases h with
  | @whole negative ds some digits =>
    have text : Simple (sign negative ++ (ds ++ ['.'])) (natOf (ds ++ [])) 0 :=
      .pointed negative some digits (by simp)
    rwa [List.append_nil, ← List.append_assoc] at text
  | pointed negative some digits behind => simp at none

theorem natOf_dropLast_mul_le {ds : List Char} (some : ds ≠ []) :
    natOf ds.dropLast * 10 ≤ natOf ds := by
  have split := List.dropLast_concat_getLast some
  calc natOf ds.dropLast * 10
      ≤ natOf ds.dropLast * 10 + natOf [ds.getLast some] := Nat.le_add_right _ _
    _ = natOf (ds.dropLast ++ [ds.getLast some]) := by rw [natOf_append]; rfl
    _ = natOf ds := by rw [split]

/-- What is left of a simple text without its last character is simple, or nothing
but a sign, and the number does not grow. -/
theorem Simple.dropLast {cs : List Char} {n k : Nat} (h : Simple cs n k) :
    (∃ n' k', Simple cs.dropLast n' k' ∧ n' * 10 ^ k ≤ n * 10 ^ k') ∨
      ∃ negative, cs.dropLast = sign negative := by
  cases h with
  | @whole negative ds some digits =>
    rw [List.dropLast_append_of_ne_nil some]
    by_cases one : ds.dropLast = []
    · exact .inr ⟨negative, by rw [one, List.append_nil]⟩
    · have less := natOf_dropLast_mul_le some
      exact .inl ⟨_, _, .whole negative one fun c hc => digits c (List.dropLast_subset _ hc),
        by omega⟩
  | @pointed negative ds places some digits behind =>
    left
    rw [List.dropLast_append_of_ne_nil (by simp), List.dropLast_append_of_ne_nil (by simp)]
    cases places with
    | nil =>
      rw [List.dropLast_singleton, List.append_nil]
      exact ⟨_, _, .whole negative some digits, Nat.le_refl _⟩
    | cons c rest =>
      have filled : ds ++ c :: rest ≠ [] := by simp
      have less := natOf_dropLast_mul_le filled
      rw [List.dropLast_append_of_ne_nil (by simp)] at less
      rw [List.dropLast_cons_of_ne_nil (by simp)]
      refine ⟨_, _, .pointed negative some digits fun d hd => behind d (List.dropLast_subset _ hd),
        ?_⟩
      have count : (c :: rest).length = (c :: rest).dropLast.length + 1 := by simp
      rw [count, Nat.pow_succ, Nat.mul_comm (10 ^ _), ← Nat.mul_assoc]
      exact Nat.mul_le_mul_right _ less

theorem namesInfinity_append {cs : List Char} (h : namesInfinity cs = true) (ds : List Char) :
    namesInfinity (cs ++ ds) = true := by
  unfold namesInfinity at h
  split at h
  · rfl
  · rfl
  · cases h

theorem namesInfinity_dropLast {cs : List Char} (h : namesInfinity cs = true) :
    namesInfinity cs.dropLast = true ∨ ∃ negative, cs.dropLast = sign negative := by
  unfold namesInfinity at h
  split at h
  · rename_i rest
    cases rest with
    | nil => exact .inr ⟨false, rfl⟩
    | cons c rest => exact .inl rfl
  · rename_i rest
    cases rest with
    | nil => exact .inr ⟨true, rfl⟩
    | cons c rest => exact .inl rfl
  · cases h

/-! Plain and scientific form -/

theorem digits_isDigit (n : Nat) : ∀ c ∈ digits n, c.isDigit = true :=
  fun _ hc => Nat.isDigit_of_mem_toDigits (by decide) (by decide) hc

theorem digits_ne_nil (n : Nat) : digits n ≠ [] := Nat.toDigits_ne_nil

theorem replicate_isDigit (n : Nat) : ∀ c ∈ List.replicate n '0', c.isDigit = true := by
  intro c hc
  rw [List.eq_of_mem_replicate hc]
  decide

theorem digits_zeros_isDigit (n k : Nat) :
    ∀ c ∈ digits n ++ List.replicate k '0', c.isDigit = true :=
  List.forall_mem_append.mpr ⟨digits_isDigit n, replicate_isDigit k⟩

theorem padded_isDigit (width : Nat) {ds : List Char} (h : ∀ c ∈ ds, c.isDigit = true) :
    ∀ c ∈ padded width ds, c.isDigit = true := by
  intro c hc
  rcases List.mem_append.mp hc with hc | hc
  · exact replicate_isDigit _ c hc
  · exact h c hc

/-- The point leaves digits in front of it, and behind it as many as there are places. -/
theorem pointed_parts (places : Nat) {ds : List Char} (h : ∀ c ∈ ds, c.isDigit = true) :
    ∃ whole behind, pointed places ds = whole ++ '.' :: behind ∧ whole ≠ [] ∧
      (∀ c ∈ whole, c.isDigit = true) ∧ (∀ c ∈ behind, c.isDigit = true) ∧
      behind.length = places ∧ whole ++ behind = padded (places + 1) ds := by
  have all := padded_isDigit (places + 1) h
  have long : places < (padded (places + 1) ds).length := by
    simp only [padded, List.length_append, List.length_replicate]
    omega
  refine ⟨_, _, rfl, ?_, fun c hc => all c (List.mem_of_mem_take hc),
    fun c hc => all c (List.mem_of_mem_drop hc), ?_, List.take_append_drop _ _⟩
  · rw [ne_eq, List.take_eq_nil_iff, not_or]
    refine ⟨by omega, ?_⟩
    intro none
    rw [none] at long
    cases long
  · rw [List.length_drop]
    omega

theorem simple_positional (negative : Bool) (d : Decimal) :
    Simple (sign negative ++ positional d) (d.coefficient * 10 ^ d.exponent.toNat)
      (-d.exponent).toNat := by
  unfold positional
  split
  · rename_i whole
    have number : natOf (digits d.coefficient ++ List.replicate d.exponent.toNat '0') =
        d.coefficient * 10 ^ d.exponent.toNat := by
      rw [natOf_append, natOf_digits, natOf_zeros, List.length_replicate, Nat.add_zero]
    have none : (-d.exponent).toNat = 0 := by omega
    rw [← number, none]
    exact .whole negative (by simp [digits_ne_nil]) (digits_zeros_isDigit _ _)
  · rename_i part
    obtain ⟨whole, behind, parts, some, front, back, count, all⟩ :=
      pointed_parts (-d.exponent).toNat (digits_isDigit d.coefficient)
    have number : natOf (whole ++ behind) = d.coefficient * 10 ^ d.exponent.toNat := by
      have none : d.exponent.toNat = 0 := by omega
      rw [all, natOf_padded, natOf_digits, none, Nat.pow_zero, Nat.mul_one]
    rw [parts, ← number, ← count]
    exact .pointed negative some front back

theorem simple_plain (s : Bool) (m : Magnitude) :
    Simple (plain (.finite s m)).toList
      ((shortest s m).coefficient * 10 ^ (shortest s m).exponent.toNat)
      (-(shortest s m).exponent).toNat := by
  rw [plain, String.toList_ofList]
  exact simple_positional _ _

theorem accepts_plain {x : Binary64} (h : x.isFinite = true) : accepts (plain x).toList = true := by
  cases x with
  | nan => cases h
  | infinity s => cases h
  | finite s m => exact (simple_plain s m).accepts

theorem namesInfinity_plain (s : Bool) :
    namesInfinity (plain (.infinity s)).toList = true := by
  cases s <;> decide

theorem accepts_scientific (s : Scientific) : accepts (scientific s).toList = true := by
  rw [scientific, String.toList_ofList, List.append_assoc]
  apply accepts_sign
  have exponent : isExponent ('e' :: signedExponent s.exponent) = true := by
    have none : digits s.exponent.natAbs ≠ [] := Nat.toDigits_ne_nil
    have ours : (digits s.exponent.natAbs).all isDigit = true :=
      List.all_eq_true.mpr fun c hc => isDigit_of_ascii (digits_isDigit _ c hc)
    unfold signedExponent
    split <;> simp [isExponent, dropSign, isDigits, none, ours]
  unfold mantissa
  split
  · exact isUnsigned_whole Nat.toDigits_ne_nil (isDigit_of_ascii_digits (digits_isDigit _))
      exponent
  · obtain ⟨whole, behind, parts, some, front, back, -⟩ :=
      pointed_parts s.places (digits_isDigit s.coefficient)
    rw [parts, List.append_assoc]
    exact isUnsigned_pointed some (isDigit_of_ascii_digits front) (isDigit_of_ascii_digits back)
      exponent

/-- A text that stands for a number: a numeral, or the name of an infinity. -/
def Legible (text : String) : Prop :=
  accepts text.toList = true ∨ namesInfinity text.toList = true

theorem not_accepts_of_namesInfinity {cs : List Char} (h : namesInfinity cs = true) :
    accepts cs = false := by
  have letter : isDigit 'I' = false := by decide
  unfold namesInfinity at h
  split at h
  · rw [accepts.eq_2 _ (by simp)]
    simp [isUnsigned, letter]
  · simp [accepts, isUnsigned, letter]
  · cases h

theorem not_namesInfinity {cs : List Char} (h : accepts cs = true) : namesInfinity cs = false := by
  cases named : namesInfinity cs with
  | false => rfl
  | true =>
    rw [not_accepts_of_namesInfinity named] at h
    cases h

theorem Legible.ne_empty {text : String} (h : Legible text) : text ≠ "" := by
  rintro rfl
  rcases h with h | h <;> cases h

theorem legible_plain {x : Binary64} (h : x.isNan = false) : Legible (plain x) := by
  cases x with
  | nan => cases h
  | infinity s => exact .inr (namesInfinity_plain s)
  | finite s m => exact .inl (accepts_plain rfl)

/-- What starts as the name of an infinity reads as one, or not at all. -/
theorem read?_of_namesInfinity {text : String} (h : namesInfinity text.toList = true)
    {x : Binary64} (read : read? text = some x) : ∃ s, x = .infinity s := by
  have kept : isKept 'I' = true ∧ isKept '-' = true := by decide
  unfold namesInfinity at h
  split at h
  · rename_i rest same
    obtain ⟨t, signed⟩ := read?_append (show text.toList = ['I'] ++ rest from same)
      (by simp [kept]) (by simp) read
    rw [List.singleton_append, signed?.eq_3 _ (by simp) (by simp)] at signed
    exact ⟨_, unsigned?_of_letter signed⟩
  · rename_i rest same
    obtain ⟨t, signed⟩ := read?_append (show text.toList = ['-', 'I'] ++ rest from same)
      (by simp [kept]) (by simp) read
    exact ⟨_, unsigned?_of_letter signed⟩
  · cases h

end DeskCalculator.Numeral

namespace DeskCalculator.Display
open Number Numeral

theorem legible_layout {p : Params} {x : Binary64} {text : String} (finite : x.isFinite = true)
    (h : layout p x = .ok text) : Legible text := by
  unfold layout at h
  split at h
  · cases h
    exact .inl (accepts_plain finite)
  · unfold shortened at h
    cases hs : scientific? p.exponentDigits x with
    | error f => rw [hs] at h; cases h
    | ok s =>
      rw [hs] at h
      simp only [bind, Except.bind] at h
      cases h
      split
      · exact legible_plain s.decimal.isNan_nearest
      · exact .inl (accepts_scientific s)

/-- A panel shows a finite number by laying out another, which is that number rounded. -/
theorem layout_eq_shown (p : Panel) {x : Binary64} (finite : x.isFinite = true) :
    ∃ y, rounded p.params.roundDigits x = .ok y ∧ y.isFinite = true ∧
      layout p.params y = .ok (p.shown (some x)) := by
  obtain ⟨y, hy, finite'⟩ := rounded_ok p.valid finite
  refine ⟨y, hy, finite', ?_⟩
  rw [← format_eq_shown, format, if_pos finite, hy]
  rfl

/-- A panel shows a finite number as a numeral or an infinity. -/
theorem legible_shown (p : Panel) {x : Binary64} (finite : x.isFinite = true) :
    Legible (p.shown (some x)) := by
  obtain ⟨y, -, finite', laid⟩ := layout_eq_shown p finite
  exact legible_layout finite' laid

theorem shown_of_not_finite (p : Panel) {x : Binary64} (h : x.isFinite = false) :
    p.shown (some x) = p.params.errorText := by
  simp [Panel.shown, format, h]

end DeskCalculator.Display
