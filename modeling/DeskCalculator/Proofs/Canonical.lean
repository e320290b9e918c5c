import DeskCalculator.Numeral.Exact
import DeskCalculator.Proofs.SpelledOut
import DeskCalculator.Proofs.Width
import Mathlib.Data.List.DropRight

/-!
# The plain form is canonical

The exact text of a number spells out a decimal, with an exponent or a needless place. Written
without an exponent (`rendered`), and with the last zeros behind the point gone, any decimal has
one of the `Canonical` forms; for the decimal of an exact text it is the plain form of the
number: `plain_canonical`.
-/

namespace DeskCalculator.Number

/-- **The shortest decimal ends in no zero.** Without the zero it would be on a coarser grid. -/
theorem not_ten_dvd_coarsest {u c n : Nat} (some : 0 < u)
    (found : coarsest u (topGrid u) = (c, n)) : ¬ 10 ∣ c := by
  rintro ⟨k, rfl⟩
  have rounds := roundsTo_coarsest some (topGrid u)
  rw [found] at rounds
  have coarser : 10 * k * 10 ^ n = k * 10 ^ (n + 1) := by
    rw [Nat.pow_succ', ← Nat.mul_assoc, Nat.mul_comm 10 k]
  rcases Nat.lt_or_ge n (topGrid u) with below | top
  · have coarsest := le_coarsest_grid (k := k) some (coarser ▸ rounds) below
    rw [found] at coarsest
    exact Nat.not_succ_le_self n coarsest
  · have pos := coarsest_pos some found
    have high := coarsest_le_highEnd some (topGrid u)
    have ends : highEnd u ≤ 6 * u := by
      have := spacing_le_self some
      unfold highEnd
      omega
    have high := Nat.le_trans high (Nat.mul_le_mul_right five ends)
    have under := Nat.lt_of_lt_of_le (lt_pow_topGrid u) (Nat.pow_le_pow_right (by decide) top)
    have least : 10 ^ n ≤ k * 10 ^ n := Nat.le_mul_of_pos_left _ (by omega)
    rw [found, Nat.mul_assoc 6] at high
    dsimp only at high
    rw [Nat.mul_assoc 10] at high
    omega

end DeskCalculator.Number

namespace DeskCalculator.Numeral
open Number

/-- The text without the zeros behind its point, and without a point that is then last. -/
def stripped (cs : List Char) : List Char :=
  if '.' ∈ cs then (cs.rdropWhile (· == '0')).rdropWhile (· == '.') else cs

/-- A decimal without an exponent, a needless place, or a minus in front of zero. -/
def rendered (d : Decimal) : List Char :=
  let text := stripped (sign d.negative ++ positional d)
  if text = ['-', '0'] then ['0'] else text

/-- A point and what is behind it, if there is anything. -/
def fraction (places : List Char) : List Char := if places = [] then [] else '.' :: places

/-- Digits that start with zero only if that is all of them, and behind a point, if there are
any, digits that do not end in zero. -/
inductive Tight : List Char → Prop
  | mk {whole places : List Char} (some : whole ≠ []) (digits : ∀ c ∈ whole, c.isDigit = true)
      (lead : whole.head? = .some '0' → whole = ['0'])
      (behind : ∀ c ∈ places, c.isDigit = true) (last : places.getLast? ≠ .some '0') :
      Tight (whole ++ fraction places)

/-- A tight text, with a minus or none; zero has none. -/
inductive Canonical : List Char → Prop
  | unsigned {cs : List Char} (tight : Tight cs) : Canonical cs
  | minus {cs : List Char} (tight : Tight cs) (other : cs ≠ ['0']) : Canonical ('-' :: cs)

theorem Tight.chars {cs : List Char} (h : Tight cs) : ∀ c ∈ cs, c.isDigit = true ∨ c = '.' := by
  cases h with
  | mk some digits lead behind last =>
    intro c hc
    rcases List.mem_append.mp hc with hc | hc
    · exact .inl (digits c hc)
    · unfold fraction at hc
      split at hc
      · cases hc
      · rcases List.mem_cons.mp hc with rfl | hc
        · exact .inr rfl
        · exact .inl (behind c hc)

theorem Canonical.ne_minus_zero {cs : List Char} (h : Canonical cs) : cs ≠ ['-', '0'] := by
  cases h with
  | unsigned tight =>
    rintro rfl
    have first := tight.chars '-' List.mem_cons_self
    revert first
    decide
  | minus tight other =>
    intro same
    exact other (List.cons.inj same).2

theorem Canonical.no_exponent {cs : List Char} (h : Canonical cs) :
    ∀ c ∈ cs, c ≠ 'e' ∧ c ≠ 'E' := by
  have other {c : Char} (h : c.isDigit = true ∨ c = '.') : c ≠ 'e' ∧ c ≠ 'E' := by
    constructor <;> rintro rfl <;> revert h <;> decide
  cases h with
  | unsigned tight => exact fun c hc => other (tight.chars c hc)
  | minus tight =>
    intro c hc
    rcases List.mem_cons.mp hc with rfl | hc
    · decide
    · exact other (tight.chars c hc)

/-! What the point is stripped of -/

theorem stripped_whole {cs : List Char} (h : ∀ c ∈ cs, c ≠ '.') : stripped cs = cs :=
  if_neg fun point => h '.' point rfl

theorem rdropWhile_append (p : Char → Bool) (front back : List Char) :
    (front ++ back).rdropWhile p =
      if back.rdropWhile p = [] then front.rdropWhile p else front ++ back.rdropWhile p := by
  simp only [List.rdropWhile, List.reverse_append, List.dropWhile_append, List.reverse_eq_nil_iff,
    List.isEmpty_iff]
  split <;> simp

theorem rdropWhile_of_digit {cs : List Char} (h : ∀ c ∈ cs.getLast?, c.isDigit = true) :
    cs.rdropWhile (· == '.') = cs := by
  rw [List.rdropWhile_eq_self_iff]
  intro some point
  have digit := h _ (List.getLast?_eq_some_getLast some)
  rw [beq_iff_eq.mp point] at digit
  revert digit
  decide

/-- The zeros at the end of the places go, and the point with them if they are all. -/
theorem stripped_pointed {front places : List Char} (some : ∀ c ∈ front.getLast?, c.isDigit = true)
    (behind : ∀ c ∈ places, c.isDigit = true) :
    stripped (front ++ '.' :: places) = front ++ fraction (places.rdropWhile (· == '0')) := by
  have point : '.' ∈ front ++ '.' :: places := by simp
  have parts : front ++ '.' :: places = front ++ ['.'] ++ places := by simp
  rw [stripped, if_pos point, parts, rdropWhile_append, fraction]
  split
  · rw [List.rdropWhile_concat_neg _ _ _ (by decide), List.rdropWhile_concat_pos _ _ _ (by decide),
      rdropWhile_of_digit some, List.append_nil]
  · rename_i left
    rw [rdropWhile_of_digit, List.append_assoc, List.singleton_append]
    intro c hc
    rw [List.getLast?_append_of_ne_nil _ left] at hc
    exact behind c ((List.rdropWhile_prefix _ _).subset (List.mem_of_mem_getLast? hc))

/-- A number other than zero starts with no zero. -/
theorem eq_zero_of_head {n : Nat} (h : (digits n).head? = some '0') : n = 0 := by
  obtain ⟨rest, parts⟩ := List.head?_eq_some_iff.mp h
  have value : n = natOf rest := by
    have zero : natOf ['0'] = 0 := by decide
    rw [← natOf_digits n, parts, ← List.singleton_append, natOf_append, zero, Nat.zero_mul,
      Nat.zero_add]
  have less : n < 10 ^ rest.length := by
    rw [value]
    exact natOf_lt fun c hc => digits_isDigit n c (parts ▸ List.mem_cons_of_mem _ hc)
  cases rest with
  | nil => exact value
  | cons c rest =>
    have short := length_digits_le (Nat.succ_pos _) less
    rw [parts] at short
    exact absurd short (Nat.not_succ_le_self _)

theorem digits_lead {n : Nat} (h : (digits n).head? = some '0') : digits n = ['0'] := by
  rw [eq_zero_of_head h]
  decide

theorem last_stripped (places : List Char) :
    (places.rdropWhile (· == '0')).getLast? ≠ some '0' := by
  intro zero
  have some : places.rdropWhile (· == '0') ≠ [] := by
    intro none
    rw [none] at zero
    cases zero
  rw [List.getLast?_eq_some_getLast some, Option.some.injEq] at zero
  exact List.rdropWhile_last_not _ _ some (beq_iff_eq.mpr zero)

/-- Where the digits reach past the point their first is in front of it, else a zero is. -/
theorem whole_lead {n places : Nat} {whole behind : List Char} (count : behind.length = places)
    (all : whole ++ behind = padded (places + 1) (digits n)) (h : whole.head? = some '0') :
    whole = ['0'] := by
  obtain ⟨rest, rfl⟩ := List.head?_eq_some_iff.mp h
  rcases Nat.lt_or_ge (places + 1) (digits n).length with long | short
  · have lead : (digits n).head? = some '0' := by
      have none : places + 1 - (digits n).length = 0 := by omega
      rw [padded, none, List.replicate_zero, List.nil_append] at all
      rw [← all]
      rfl
    rw [digits_lead lead] at long
    exact absurd long (by simp)
  · have total := congrArg List.length all
    simp only [padded, List.length_append, List.length_cons, List.length_replicate] at total
    have none : rest.length = 0 := by omega
    rw [List.eq_nil_of_length_eq_zero none]

theorem Tight.whole {ds : List Char} (some : ds ≠ []) (digits : ∀ c ∈ ds, c.isDigit = true)
    (lead : ds.head? = .some '0' → ds = ['0']) : Tight ds := by
  have tight : Tight (ds ++ fraction []) := .mk some digits lead (by simp) (by simp)
  rwa [fraction, if_pos rfl, List.append_nil] at tight

theorem stripped_of_whole {d : Decimal} (whole : 0 ≤ d.exponent) (negative : Bool) :
    stripped (sign negative ++ positional d) = sign negative ++ positional d := by
  have minus : ∀ c ∈ sign negative, c ≠ '.' := by cases negative <;> simp [sign]
  rw [positional, if_pos whole]
  apply stripped_whole
  intro c hc
  rcases List.mem_append.mp hc with hc | hc
  · exact minus c hc
  · rintro rfl
    exact absurd (digits_zeros_isDigit _ _ '.' hc) (by decide)

theorem stripped_of_pointed {whole behind : List Char} (some : whole ≠ [])
    (front : ∀ c ∈ whole, c.isDigit = true) (back : ∀ c ∈ behind, c.isDigit = true)
    (negative : Bool) :
    stripped (sign negative ++ (whole ++ '.' :: behind)) =
      sign negative ++ (whole ++ fraction (behind.rdropWhile (· == '0'))) := by
  have stop : ∀ c ∈ (sign negative ++ whole).getLast?, c.isDigit = true := by
    intro c hc
    rw [List.getLast?_append_of_ne_nil _ some] at hc
    exact front c (List.mem_of_mem_getLast? hc)
  rw [← List.append_assoc, stripped_pointed stop back, List.append_assoc]

/-- **Stripped of its zeros and its point a decimal is tight.** -/
theorem stripped_positional (negative : Bool) {d : Decimal}
    (some : d.coefficient ≠ 0 ∨ d.exponent ≤ 0) :
    ∃ cs, stripped (sign negative ++ positional d) = sign negative ++ cs ∧ Tight cs := by
  rcases Int.lt_or_le d.exponent 0 with part | whole
  · obtain ⟨whole, behind, parts, filled, front, back, count, all⟩ :=
      pointed_parts (-d.exponent).toNat (digits_isDigit d.coefficient)
    rw [positional, if_neg (by omega), parts, stripped_of_pointed filled front back]
    refine ⟨_, rfl, .mk filled front (whole_lead count all) ?_ (last_stripped behind)⟩
    exact fun c hc => back c ((List.rdropWhile_prefix _ _).subset hc)
  · refine ⟨_, stripped_of_whole whole negative, ?_⟩
    have filled := digits_ne_nil d.coefficient
    rw [positional, if_pos whole]
    refine .whole (by simp [filled]) (digits_zeros_isDigit _ _) ?_
    rw [List.head?_append_of_ne_nil _ filled]
    intro zero
    have none : d.exponent.toNat = 0 := by
      have := eq_zero_of_head zero
      omega
    rw [none, digits_lead zero]
    rfl

/-- **Rendering makes any decimal canonical.** -/
theorem canonical_rendered {d : Decimal} (some : d.coefficient ≠ 0 ∨ d.exponent ≤ 0) :
    Canonical (rendered d) := by
  obtain ⟨cs, same, tight⟩ := stripped_positional d.negative some
  have zero : Tight ['0'] := .whole (List.cons_ne_nil _ []) (replicate_isDigit 1) fun _ => rfl
  unfold rendered
  rw [same]
  dsimp only
  split
  · exact .unsigned zero
  · rename_i other
    generalize d.negative = negative at other ⊢
    cases negative with
    | false => exact .unsigned tight
    | true => exact .minus tight fun none => other (none ▸ rfl)

/-! The exact text spells out a decimal that is rendered in plain form -/

/-- A number whose digits end in zero is a multiple of ten. -/
theorem ten_dvd_of_last {n : Nat} (h : (digits n).getLast? = some '0') : 10 ∣ n := by
  obtain ⟨front, parts⟩ := List.getLast?_eq_some_iff.mp h
  have zero : natOf ['0'] = 0 := by decide
  refine ⟨natOf front, ?_⟩
  rw [← natOf_digits n, parts, natOf_append, zero, Nat.add_zero, Nat.mul_comm]
  rfl

/-- Nothing goes where the digits end in no zero. -/
theorem stripped_of_not_ten_dvd {d : Decimal} (last : ¬ 10 ∣ d.coefficient) (negative : Bool) :
    stripped (sign negative ++ positional d) = sign negative ++ positional d := by
  rcases Int.lt_or_le d.exponent 0 with part | whole
  · obtain ⟨whole, behind, parts, filled, front, back, count, all⟩ :=
      pointed_parts (-d.exponent).toNat (digits_isDigit d.coefficient)
    have some : behind ≠ [] := by
      rintro rfl
      rw [List.length_nil] at count
      omega
    have final : behind.getLast? = (digits d.coefficient).getLast? := by
      have same := congrArg List.getLast? all
      rwa [padded, List.getLast?_append_of_ne_nil _ some,
        List.getLast?_append_of_ne_nil _ (digits_ne_nil _)] at same
    have kept : behind.rdropWhile (· == '0') = behind := by
      rw [List.rdropWhile_eq_self_iff]
      intro some zero
      apply last
      apply ten_dvd_of_last
      rw [← final, List.getLast?_eq_some_getLast some, beq_iff_eq.mp zero]
    rw [positional, if_neg (by omega), parts, stripped_of_pointed filled front back, kept,
      fraction, if_neg some]
  · exact stripped_of_whole whole negative

/-- One place more, and a zero on it. -/
theorem pointed_mul_ten (n : Nat) : pointed 1 (digits (n * 10)) = digits n ++ ['.', '0'] := by
  rcases Nat.eq_zero_or_pos n with rfl | pos
  · decide
  · have longer := digits_mul_pow pos 1
    have long := List.length_pos_of_ne_nil (digits_ne_nil n)
    have full : padded 2 (digits n ++ ['0']) = digits n ++ ['0'] := by
      have none : 2 - (digits n ++ ['0']).length = 0 := by
        rw [List.length_append, List.length_singleton]
        omega
      rw [padded, none, List.replicate_zero, List.nil_append]
    rw [Nat.pow_one] at longer
    rw [pointed, longer, List.replicate_one, full]
    simp

theorem exponent?_longExponent (e : Int) : exponent? ('e' :: longExponent e) = some e := by
  have some : padded 2 (digits e.natAbs) ≠ [] := by simp [padded, digits_ne_nil]
  obtain ⟨-, plus, minus⟩ :=
    exponent?_digits (.inl rfl) some (padded_isDigit 2 (digits_isDigit e.natAbs))
  rw [natOf_padded, natOf_digits] at plus minus
  unfold longExponent
  split
  · rw [minus]
    congr 1
    omega
  · rw [plus]
    congr 1
    omega

theorem positional_of_whole {d : Decimal} (whole : 0 ≤ d.exponent)
    (some : d.coefficient ≠ 0 ∨ d.exponent ≤ 0) :
    positional d = digits (d.coefficient * 10 ^ d.exponent.toNat) := by
  rw [positional, if_pos whole]
  rcases Nat.eq_zero_or_pos d.coefficient with zero | pos
  · have none : d.exponent.toNat = 0 := by omega
    rw [none, List.replicate_zero, List.append_nil, Nat.pow_zero, Nat.mul_one]
  · rw [digits_mul_pow pos]

/-- The exact text of a whole number has one place, which the plain form does not need. -/
theorem decimalOf?_one_place (negative : Bool) (n : Nat) :
    decimalOf? (.ofList (sign negative ++ (digits n ++ ['.', '0']))) =
      some ⟨negative, n * 10, -1⟩ := by
  have zero : natOf ['0'] = 0 := by decide
  have spelled := decimal?_pointed (digits_ne_nil n) (digits_isDigit n) (replicate_isDigit 1)
    (show exponent? [] = some 0 from rfl) negative
  rw [List.replicate_one, natOf_append, natOf_digits, zero] at spelled
  exact decimalOf?_sign spelled

/-- What the exact text of a decimal spells out has its digits, or one place more. -/
theorem decimalOf?_exactDecimal (negative : Bool) {d : Decimal}
    (some : d.coefficient ≠ 0 ∨ d.exponent ≤ 0) :
    ∃ d', decimalOf? (.ofList (sign negative ++ exactDecimal d)) = .some d' ∧
      d'.negative = negative ∧ (d'.coefficient ≠ 0 ∨ d'.exponent ≤ 0) ∧
      (positional d' = positional d ∨
        positional d' = positional d ++ ['.', '0'] ∧ 0 ≤ d.exponent) := by
  unfold exactDecimal
  dsimp only
  split
  · split
    · rename_i whole
      rw [positional_of_whole whole some]
      refine ⟨_, decimalOf?_one_place _ _, rfl, .inr (by simp), .inr ⟨?_, whole⟩⟩
      rw [positional, if_neg (by simp), ← pointed_mul_ten]
      rfl
    · rename_i part
      refine ⟨_, decimalOf?_positional negative d, rfl, .inr (by simp), .inl ?_⟩
      have none : d.exponent.toNat = 0 := by omega
      have places : -((-d.exponent).toNat : Int) = d.exponent := by omega
      simp only [positional, none, places, Nat.pow_zero, Nat.mul_one]
  · have spelled := decimal?_mantissa (digits_ne_nil d.coefficient) (digits_isDigit _)
      (exponent?_longExponent ((digits d.coefficient).length - 1 + d.exponent)) negative
      ((digits d.coefficient).length - 1)
    have long := List.length_pos_of_ne_nil (digits_ne_nil d.coefficient)
    have exponent : ((digits d.coefficient).length - 1 + d.exponent : Int) -
        ((digits d.coefficient).length - 1 : Nat) = d.exponent := by omega
    rw [natOf_digits, exponent] at spelled
    exact ⟨_, decimalOf?_sign spelled, rfl, some, .inl rfl⟩

/-- The shortest decimal of zero is zero itself; that of another number ends in no zero. -/
theorem shortest_cases (s : Bool) (m : Magnitude) :
    m.units = 0 ∧ shortest s m = ⟨s, 0, 0⟩ ∨
      m.units ≠ 0 ∧ (shortest s m).negative = s ∧ ¬ 10 ∣ (shortest s m).coefficient := by
  by_cases zero : m.units = 0
  · exact .inl ⟨zero, if_pos zero⟩
  · refine .inr ⟨zero, ?_⟩
    rw [shortest, if_neg zero]
    generalize found : coarsest m.units (topGrid m.units) = point
    obtain ⟨c, n⟩ := point
    exact ⟨rfl, not_ten_dvd_coarsest (Nat.pos_of_ne_zero zero) found⟩

theorem stripped_shortest (s : Bool) (m : Magnitude) :
    stripped (sign s ++ positional (shortest s m)) = sign s ++ positional (shortest s m) := by
  rcases shortest_cases s m with ⟨-, zero⟩ | ⟨-, -, last⟩
  · exact stripped_of_whole (by rw [zero]) s
  · exact stripped_of_not_ten_dvd last s

/-- One place with a zero on it goes, and its point with it. -/
theorem stripped_one_place {d : Decimal} (whole : 0 ≤ d.exponent) (negative : Bool) :
    stripped (sign negative ++ (positional d ++ ['.', '0'])) = sign negative ++ positional d := by
  have some : digits d.coefficient ++ List.replicate d.exponent.toNat '0' ≠ [] := by
    simp [digits_ne_nil]
  rw [positional, if_pos whole]
  refine (stripped_of_pointed some (digits_zeros_isDigit _ _) (replicate_isDigit 1) negative).trans ?_
  simp [fraction]

/-- **The plain form is the exact text, rendered.** -/
theorem plain_eq_rendered (s : Bool) (m : Magnitude) :
    ∃ d, decimalOf? (exact (.finite s m)) = some d ∧ (d.coefficient ≠ 0 ∨ d.exponent ≤ 0) ∧
      plain (.finite s m) = .ofList (rendered d) := by
  have some : (shortest s m).coefficient ≠ 0 ∨ (shortest s m).exponent ≤ 0 := by
    rcases shortest_cases s m with ⟨-, zero⟩ | ⟨-, -, last⟩
    · exact .inr (by rw [zero])
    · exact .inl fun none => last (none ▸ Nat.dvd_zero 10)
  obtain ⟨d, spelled, rfl, proper, same⟩ := decimalOf?_exactDecimal s some
  refine ⟨d, spelled, proper, ?_⟩
  have text : stripped (sign d.negative ++ positional d) =
      sign d.negative ++ positional (shortest d.negative m) := by
    rcases same with same | ⟨same, whole⟩
    · rw [same, stripped_shortest]
    · rw [same, stripped_one_place whole]
  unfold rendered
  rw [text]
  generalize d.negative = s
  rcases shortest_cases s m with ⟨none, zero⟩ | ⟨other, -, -⟩
  · rw [plain, zero, none]
    cases s <;> decide
  · have plain_eq : plain (.finite s m) = .ofList (sign s ++ positional (shortest s m)) := by
      have signed : (s && m.units != 0) = s := by simp [other]
      rw [plain, signed]
    rw [plain_eq, if_neg]
    intro minus_zero
    -- minus zero would read back as zero
    have read := read?_plain (.finite s m)
    have zero : read? "-0" = .some (.finite true .zero) := by decide
    rw [plain_eq, minus_zero] at read
    have same := congrArg Binary64.isZero (Option.some.inj (read.symm.trans zero))
    rw [Binary64.isZero_unsignZero] at same
    exact other (beq_iff_eq.mp same)

/-- **The plain form is canonical, and exact.** It is the exact text rendered without an
exponent; it reads back as the number, and as zero where the number is minus zero. -/
theorem plain_canonical {x : Binary64} (finite : x.isFinite = true) :
    (∃ d, decimalOf? (exact x) = some d ∧ plain x = .ofList (rendered d)) ∧
      Canonical (plain x).toList ∧ plain x ≠ "-0" ∧
      (∀ c ∈ (plain x).toList, c ≠ 'e' ∧ c ≠ 'E') ∧ read? (plain x) = some x.unsignZero := by
  cases x with
  | nan => cases finite
  | infinity s => cases finite
  | finite s m =>
    obtain ⟨d, spelled, proper, same⟩ := plain_eq_rendered s m
    have canonical : Canonical (plain (.finite s m)).toList := by
      rw [same, String.toList_ofList]
      exact canonical_rendered proper
    refine ⟨⟨d, spelled, same⟩, canonical, ?_, canonical.no_exponent, read?_plain _⟩
    intro minus
    exact canonical.ne_minus_zero (by rw [minus]; rfl)

/-- A number whose exact text has an exponent. -/
theorem plain_canonical_small :
    ∃ x : Binary64, exact x = "-2.5e-07" ∧ plain x = "-0.00000025" ∧
      Canonical (plain x).toList := by
  refine ⟨Decimal.nearest ⟨true, 25, -8⟩, by decide +kernel, by decide +kernel, ?_⟩
  exact (plain_canonical (by decide +kernel)).2.1

end DeskCalculator.Numeral
