import DeskCalculator.Numeral.Reading

/-!
# Numerals have values

A numeral may use digits of any script; free text is first brought into our own.
`inAscii` is what that does to a numeral character by character, and it keeps
the parts of a numeral. `read?_of_accepts`: so every numeral is read, as a
decimal rounded once, which is never nan.
-/

namespace DeskCalculator.Numeral
open Number Text

/-- A digit of any script as one of ours; other characters stay. -/
def inAscii (c : Char) : Char :=
  match digit? c with
  | some d => Char.ofNat ('0'.toNat + d)
  | none => c

theorem zeros_high : ∀ z ∈ zeros, z = 0x30 ∨ 0x80 ≤ z := by decide

/-- A run of digits lies between blanks. -/
theorem zeros_not_blank : ∀ z ∈ zeros, ∀ d < 10, isBlank (Char.ofNat (z + d)) = false := by
  decide +kernel

theorem digit?_spec {c : Char} {d : Nat} (h : digit? c = some d) :
    d < 10 ∧ ∃ z ∈ zeros, c.toNat = z + d := by
  obtain ⟨z, found, rfl⟩ := Option.map_eq_some_iff.mp h
  have between := List.find?_some found
  simp only [Bool.and_eq_true, decide_eq_true_eq] at between
  exact ⟨by omega, z, List.mem_of_find?_eq_some found, by omega⟩

theorem digit?_of_ascii {c : Char} (h : c.isDigit = true) : digit? c = some (c.toNat - 0x30) := by
  rw [Char.isDigit_iff_toNat] at h
  have first : zeros.find? (fun z => z ≤ c.toNat && c.toNat < z + 10) = some 0x30 := by
    have low : (0x30 : Nat) ≤ c.toNat := h.1
    have high : c.toNat < 0x30 + 10 := Nat.lt_succ_of_le h.2
    simp [zeros, low, high]
  rw [digit?, first]
  rfl

theorem isDigit_of_ascii {c : Char} (h : c.isDigit = true) : isDigit c = true := by
  simp [isDigit, digit?_of_ascii h]

theorem isDigit_digit {d : Nat} (h : d < 10) : (Char.ofNat ('0'.toNat + d)).isDigit = true := by
  revert d
  decide

@[simp]
theorem isDigit_inAscii (c : Char) : (inAscii c).isDigit = isDigit c := by
  unfold inAscii
  cases found : digit? c with
  | some d => simpa [isDigit, found] using isDigit_digit (digit?_spec found).1
  | none =>
    have other : isDigit c = false := by simp [isDigit, found]
    rw [other, Bool.eq_false_iff]
    intro ascii
    rw [isDigit_of_ascii ascii] at other
    cases other

theorem inAscii_of_not_digit {c : Char} (h : isDigit c = false) : inAscii c = c := by
  have none : digit? c = none := by simpa [isDigit] using h
  simp [inAscii, none]

/-- Bringing digits into our script neither makes nor hides a character that is no digit. -/
theorem inAscii_eq_iff {c x : Char} (h : isDigit x = false) : inAscii c = x ↔ c = x := by
  constructor
  · intro same
    cases digit : isDigit c with
    | false => rw [← same, inAscii_of_not_digit digit]
    | true =>
      rw [← isDigit_inAscii, same] at digit
      rw [isDigit_of_ascii digit] at h
      cases h
  · rintro rfl
    exact inAscii_of_not_digit h

theorem inAscii_of_lt {c : Char} (h : c.toNat < 0x80) : inAscii c = c := by
  unfold inAscii
  cases found : digit? c with
  | none => rfl
  | some d =>
    obtain ⟨small, z, run, place⟩ := digit?_spec found
    have ours : z = 0x30 := by
      rcases zeros_high z run with ours | high
      · exact ours
      · omega
    have same : '0'.toNat + d = c.toNat := by rw [place, ours]; rfl
    simp only [same, Char.ofNat_toNat]

/-- The characters of numerals. -/
def isGlyph (c : Char) : Bool := isDigit c || ['-', '+', '.', 'e', 'E'].contains c

theorem toAscii?_of_glyph {c : Char} (h : isGlyph c = true) : toAscii? c = some (inAscii c) := by
  unfold toAscii?
  by_cases low : c.toNat < 0x7f
  · rw [if_pos low, inAscii_of_lt (by omega)]
  · have digit : isDigit c = true := by
      rcases Bool.or_eq_true_iff.mp h with digit | sign
      · exact digit
      · simp only [List.contains_eq_mem, decide_eq_true_eq, List.mem_cons, List.not_mem_nil,
          or_false] at sign
        rcases sign with rfl | rfl | rfl | rfl | rfl <;> exact absurd (by decide) low
    obtain ⟨d, found⟩ := Option.isSome_iff_exists.mp digit
    obtain ⟨small, z, run, place⟩ := digit?_spec found
    have blank : isBlank c = false := by
      rw [← Char.ofNat_toNat c, place]
      exact zeros_not_blank z run d small
    simp [low, blank, found, inAscii]

theorem mapM_toAscii? {cs : List Char} (h : ∀ c ∈ cs, isGlyph c = true) :
    cs.mapM toAscii? = some (cs.map inAscii) := by
  induction cs with
  | nil => rfl
  | cons c rest ih =>
    rw [List.mapM_cons, toAscii?_of_glyph (h c List.mem_cons_self),
      ih fun c hc => h c (List.mem_cons_of_mem _ hc)]
    rfl

theorem ascii?_of_glyphs {cs : List Char} (h : ∀ c ∈ cs, isGlyph c = true) :
    ascii? cs = some (cs.map inAscii) := by
  unfold ascii?
  split
  · rename_i low
    have same : cs.map inAscii = cs.map id := by
      apply List.map_congr_left
      intro c hc
      exact inAscii_of_lt (of_decide_eq_true (List.all_eq_true.mp low c hc))
    rw [same, List.map_id]
  · exact mapM_toAscii? h

theorem isDigits_glyphs {cs : List Char} (h : isDigits (dropSign cs) = true) :
    ∀ c ∈ cs, isGlyph c = true := by
  have digits : ∀ c ∈ dropSign cs, isGlyph c = true := by
    intro c hc
    have digit := List.all_eq_true.mp (Bool.and_eq_true_iff.mp h).2 c hc
    simp [isGlyph, digit]
  intro c hc
  unfold dropSign at digits
  split at digits
  · rcases List.mem_cons.mp hc with rfl | hc
    · decide
    · exact digits c hc
  · rcases List.mem_cons.mp hc with rfl | hc
    · decide
    · exact digits c hc
  · exact digits c hc

theorem isExponent_glyphs {cs : List Char} (h : isExponent cs = true) :
    ∀ c ∈ cs, isGlyph c = true := by
  cases cs with
  | nil => intro c hc; cases hc
  | cons x rest =>
    obtain ⟨mark, digits⟩ := Bool.and_eq_true_iff.mp h
    intro c hc
    rcases List.mem_cons.mp hc with rfl | hc
    · simp only [Bool.or_eq_true, beq_iff_eq] at mark
      rcases mark with rfl | rfl <;> decide
    · exact isDigits_glyphs digits c hc

theorem takeWhile_glyphs (cs : List Char) : ∀ c ∈ cs.takeWhile isDigit, isGlyph c = true := by
  intro c hc
  have digit := List.all_eq_true.mp List.all_takeWhile c hc
  simp [isGlyph, digit]

theorem isUnsigned_glyphs {cs : List Char} (h : isUnsigned cs = true) :
    ∀ c ∈ cs, isGlyph c = true := by
  intro c hc
  rw [← List.takeWhile_append_dropWhile (p := isDigit) (l := cs)] at hc
  rcases List.mem_append.mp hc with hc | hc
  · exact takeWhile_glyphs cs c hc
  · unfold isUnsigned at h
    revert h hc
    split
    · rename_i rest same
      intro h hc
      rw [same] at hc
      rcases List.mem_cons.mp hc with rfl | hc
      · decide
      · rw [← List.takeWhile_append_dropWhile (p := isDigit) (l := rest)] at hc
        rcases List.mem_append.mp hc with hc | hc
        · exact takeWhile_glyphs rest c hc
        · exact isExponent_glyphs (Bool.and_eq_true_iff.mp h).2 c hc
    · intro h hc
      exact isExponent_glyphs (Bool.and_eq_true_iff.mp h).2 c hc

theorem accepts_glyphs {cs : List Char} (h : accepts cs = true) : ∀ c ∈ cs, isGlyph c = true := by
  unfold accepts at h
  split at h
  · intro c hc
    rcases List.mem_cons.mp hc with rfl | hc
    · decide
    · exact isUnsigned_glyphs h c hc
  · exact isUnsigned_glyphs h

/-- A glyph in our own script is no blank and groups no digits. -/
theorem inAscii_glyph {c : Char} (h : isGlyph c = true) :
    inAscii c ≠ '_' ∧ isMargin (inAscii c) = false := by
  cases digit : isDigit c with
  | true =>
    rw [← isDigit_inAscii] at digit
    have other : inAscii c ≠ '_' := by
      intro same
      rw [same] at digit
      cases digit
    rw [Char.isDigit_iff_toNat] at digit
    have low : (0x30 : Nat) ≤ (inAscii c).toNat := digit.1
    have space : inAscii c ≠ ' ' := by
      intro same
      rw [same] at low
      exact absurd low (by decide)
    refine ⟨other, ?_⟩
    simp only [isMargin, Bool.or_eq_false_iff, Bool.and_eq_false_iff, decide_eq_false_iff_not,
      beq_eq_false_iff_ne, ne_eq, space, not_false_eq_true, and_true]
    omega
  | false =>
    rw [inAscii_of_not_digit digit]
    simp only [isGlyph, digit, Bool.false_or, List.contains_eq_mem, decide_eq_true_eq,
      List.mem_cons, List.not_mem_nil, or_false] at h
    rcases h with rfl | rfl | rfl | rfl | rfl <;> decide

theorem ungroup?_of_forall_ne {cs : List Char} (h : ∀ c ∈ cs, c ≠ '_') (afterDigit : Bool) :
    ungroup? afterDigit cs = some cs := by
  induction cs generalizing afterDigit with
  | nil => rfl
  | cons c rest ih =>
    have here : c ≠ '_' := h c List.mem_cons_self
    have later := ih (fun c hc => h c (List.mem_cons_of_mem _ hc)) c.isDigit
    rw [ungroup?.eq_3 _ _ _ fun d tail same _ => here same, if_neg here, later]
    rfl

theorem dropWhile_of_forall {p : Char → Bool} {cs : List Char} (h : ∀ c ∈ cs, p c = false) :
    cs.dropWhile p = cs := by
  cases cs with
  | nil => rfl
  | cons c rest => simp [h c List.mem_cons_self]

theorem trimWith_of_forall {p : Char → Bool} {cs : List Char} (h : ∀ c ∈ cs, p c = false) :
    trimWith p cs = cs := by
  have back : ∀ c ∈ cs.reverse, p c = false := fun c hc => h c (List.mem_reverse.mp hc)
  rw [trimWith, dropWhile_of_forall h, dropWhile_of_forall back, List.reverse_reverse]

theorem read?_of_glyphs {s : String} (h : ∀ c ∈ s.toList, isGlyph c = true) :
    read? s = signed? (s.toList.map inAscii) := by
  have line : ∀ c ∈ s.toList.map inAscii, c ≠ '_' := by
    intro c hc
    obtain ⟨d, hd, rfl⟩ := List.mem_map.mp hc
    exact (inAscii_glyph (h d hd)).1
  have margin : ∀ c ∈ s.toList.map inAscii, isMargin c = false := by
    intro c hc
    obtain ⟨d, hd, rfl⟩ := List.mem_map.mp hc
    exact (inAscii_glyph (h d hd)).2
  simp only [read?, ascii?_of_glyphs h, ungroup?_of_forall_ne line, trimWith_of_forall margin,
    bind, Option.bind]

theorem takeWhile_inAscii (cs : List Char) :
    (cs.map inAscii).takeWhile Char.isDigit = (cs.takeWhile isDigit).map inAscii := by
  rw [List.takeWhile_map]
  congr 2
  exact funext isDigit_inAscii

theorem dropWhile_inAscii (cs : List Char) :
    (cs.map inAscii).dropWhile Char.isDigit = (cs.dropWhile isDigit).map inAscii := by
  rw [List.dropWhile_map]
  congr 2
  exact funext isDigit_inAscii

theorem dropSign_inAscii (cs : List Char) :
    dropSign (cs.map inAscii) = (dropSign cs).map inAscii := by
  cases cs with
  | nil => rfl
  | cons c rest =>
    by_cases sign : c = '+' ∨ c = '-'
    · rcases sign with rfl | rfl <;> rfl
    · rw [not_or] at sign
      have plus : inAscii c ≠ '+' := fun h => sign.1 ((inAscii_eq_iff (by decide)).mp h)
      have minus : inAscii c ≠ '-' := fun h => sign.2 ((inAscii_eq_iff (by decide)).mp h)
      rw [List.map_cons, dropSign.eq_3 _ (by simp [plus]) (by simp [minus]),
        dropSign.eq_3 _ (by simp [sign.1]) (by simp [sign.2]), List.map_cons]

theorem exponent?_cons {c : Char} (mark : c = 'e' ∨ c = 'E') {rest : List Char}
    (some : dropSign rest ≠ []) (digits : (dropSign rest).all Char.isDigit = true) :
    ∃ e, exponent? (c :: rest) = .some e := by
  have filled : ((dropSign rest).isEmpty || !(dropSign rest).all Char.isDigit) = false := by
    simp [some, digits]
  unfold exponent?
  dsimp only
  rw [if_pos mark]
  split
  · exact ⟨_, if_neg (Bool.eq_false_iff.mp filled)⟩
  · exact ⟨_, if_neg (Bool.eq_false_iff.mp filled)⟩
  · rename_i minus plus
    rw [dropSign.eq_3 rest plus minus] at filled
    exact ⟨_, if_neg (Bool.eq_false_iff.mp filled)⟩

theorem exponent?_isSome {cs : List Char} (h : isExponent cs = true) :
    ∃ e, exponent? (cs.map inAscii) = some e := by
  cases cs with
  | nil => exact ⟨0, rfl⟩
  | cons x rest =>
    obtain ⟨mark, digits⟩ := Bool.and_eq_true_iff.mp h
    obtain ⟨filled, digits⟩ := Bool.and_eq_true_iff.mp digits
    rw [List.map_cons]
    apply exponent?_cons
    · simp only [Bool.or_eq_true, beq_iff_eq] at mark
      rcases mark with rfl | rfl
      · exact .inl rfl
      · exact .inr rfl
    · rw [dropSign_inAscii]
      simpa using filled
    · rw [dropSign_inAscii, List.all_map, ← digits]
      congr 1
      exact funext isDigit_inAscii

theorem decimal?_isSome {cs : List Char} (h : isUnsigned cs = true) (negative : Bool) :
    ∃ d, decimal? negative (cs.map inAscii) = some d := by
  unfold decimal?
  rw [takeWhile_inAscii, dropWhile_inAscii]
  unfold isUnsigned at h
  generalize cs.takeWhile isDigit = whole at h
  split at h
  · rename_i rest after
    obtain ⟨some, exponent⟩ := Bool.and_eq_true_iff.mp h
    obtain ⟨e, he⟩ := exponent?_isSome exponent
    have point : inAscii '.' = '.' := by decide
    rw [after, List.map_cons, point]
    simp only [takeWhile_inAscii, dropWhile_inAscii, he, Option.map_some]
    rw [if_neg (by simpa [← Bool.not_and] using some)]
    exact ⟨_, rfl⟩
  · rename_i other
    obtain ⟨some, exponent⟩ := Bool.and_eq_true_iff.mp h
    obtain ⟨e, he⟩ := exponent?_isSome exponent
    split
    rename_i fraction rest parts
    split at parts
    · rename_i same
      obtain ⟨c, tail, after, point, -⟩ := List.map_eq_cons_iff.mp same
      rw [inAscii_eq_iff (by decide)] at point
      exact absurd (point ▸ after) (other tail)
    · cases parts
      rw [he, if_neg (by simpa using some)]
      exact ⟨_, rfl⟩

theorem decimal?_of_letter {c : Char} (digit : c.isDigit = false) (point : c ≠ '.')
    (negative : Bool) (rest : List Char) : decimal? negative (c :: rest) = none := by
  unfold decimal?
  have whole : (c :: rest).takeWhile Char.isDigit = [] := by simp [digit]
  have after : (c :: rest).dropWhile Char.isDigit = c :: rest := by simp [digit]
  rw [whole, after]
  split
  rename_i fraction later parts
  split at parts
  · rename_i same
    cases same
    exact absurd rfl point
  · cases parts
    rfl

theorem toLower_digit {c : Char} (h : c.isDigit = true) : c.toLower = c := by
  have all : ∀ n < 58, 48 ≤ n → (Char.ofNat n).toLower = Char.ofNat n := by decide
  rw [Char.isDigit_iff_toNat] at h
  have := all c.toNat (Nat.lt_succ_of_le h.2) h.1
  rwa [Char.ofNat_toNat] at this

/-- What starts with a digit or a point is no name. -/
theorem unsigned?_of_decimal? {negative : Bool} {cs : List Char} {d : Decimal}
    (h : decimal? negative cs = some d) : unsigned? negative cs = some d.nearest := by
  have unnamed (x : Char) (letter : x.isDigit = false ∧ x ≠ '.') (rest : List Char) :
      cs.map Char.toLower ≠ x :: rest := by
    intro same
    obtain ⟨c, tail, rfl, lower, -⟩ := List.map_eq_cons_iff.mp same
    have digit : c.isDigit = false := by
      rw [Bool.eq_false_iff]
      intro digit
      rw [toLower_digit digit] at lower
      rw [lower, letter.1] at digit
      cases digit
    have point : c ≠ '.' := by
      rintro rfl
      exact letter.2 lower.symm
    rw [decimal?_of_letter digit point] at h
    cases h
  have text (name : String) (x : Char) (rest : List Char) (spelled : name.toList = x :: rest)
      (letter : x.isDigit = false ∧ x ≠ '.') : String.ofList (cs.map Char.toLower) ≠ name := by
    intro same
    apply unnamed x letter rest
    rw [← spelled, ← same, String.toList_ofList]
  unfold unsigned?
  split
  · rename_i same
    exact absurd same (text "inf" 'i' ['n', 'f'] rfl (by decide))
  · rename_i same
    exact absurd same (text "infinity" 'i' ['n', 'f', 'i', 'n', 'i', 't', 'y'] rfl (by decide))
  · rename_i same
    exact absurd same (text "nan" 'n' ['a', 'n'] rfl (by decide))
  · rw [h]
    rfl

/-- **Every numeral has a value:** a decimal rounded once. -/
theorem read?_of_accepts {s : String} (h : accepts s.toList = true) :
    ∃ d : Decimal, read? s = some d.nearest := by
  rw [read?_of_glyphs (accepts_glyphs h)]
  unfold accepts at h
  split at h
  · rename_i rest same
    obtain ⟨d, hd⟩ := decimal?_isSome h true
    refine ⟨d, ?_⟩
    rw [same, List.map_cons]
    exact unsigned?_of_decimal? hd
  · rename_i minus
    have plus (rest : List Char) : s.toList ≠ '+' :: rest := by
      intro same
      have digit : isDigit '+' = false := by decide
      simp [same, isUnsigned, digit] at h
    obtain ⟨d, hd⟩ := decimal?_isSome h false
    refine ⟨d, ?_⟩
    rw [signed?.eq_3]
    · exact unsigned?_of_decimal? hd
    · intro rest same
      obtain ⟨c, tail, after, sign, -⟩ := List.map_eq_cons_iff.mp same
      rw [inAscii_eq_iff (by decide)] at sign
      exact minus tail (sign ▸ after)
    · intro rest same
      obtain ⟨c, tail, after, sign, -⟩ := List.map_eq_cons_iff.mp same
      rw [inAscii_eq_iff (by decide)] at sign
      exact plus tail (sign ▸ after)

/-! What starts with no digit -/

/-- A character that reading leaves as it is, wherever it stands. -/
def isKept (c : Char) : Bool := c.toNat < 0x7f && c != '_' && !isMargin c

theorem isKept_iff {c : Char} :
    isKept c = true ↔ c.toNat < 0x7f ∧ c ≠ '_' ∧ isMargin c = false := by
  simp [isKept, and_assoc]

theorem mapM_toAscii?_append {front rest cs : List Char} (h : ∀ c ∈ front, isKept c = true)
    (read : (front ++ rest).mapM toAscii? = some cs) : ∃ t, cs = front ++ t := by
  induction front generalizing cs with
  | nil => exact ⟨cs, rfl⟩
  | cons c front ih =>
    have low := (isKept_iff.mp (h c List.mem_cons_self)).1
    rw [List.cons_append, List.mapM_cons, toAscii?, if_pos low] at read
    obtain ⟨_, same, read⟩ := Option.bind_eq_some_iff.mp read
    obtain ⟨ds, hds, read⟩ := Option.bind_eq_some_iff.mp read
    obtain ⟨t, rfl⟩ := ih (fun c hc => h c (List.mem_cons_of_mem _ hc)) hds
    cases same
    cases read
    exact ⟨t, rfl⟩

theorem ascii?_append {front rest cs : List Char} (h : ∀ c ∈ front, isKept c = true)
    (read : ascii? (front ++ rest) = some cs) : ∃ t, cs = front ++ t := by
  unfold ascii? at read
  split at read
  · cases read
    exact ⟨rest, rfl⟩
  · exact mapM_toAscii?_append h read

theorem ungroup?_append {front rest cs : List Char} (h : ∀ c ∈ front, isKept c = true)
    {afterDigit : Bool} (read : ungroup? afterDigit (front ++ rest) = some cs) :
    ∃ t, cs = front ++ t := by
  induction front generalizing afterDigit cs with
  | nil => exact ⟨cs, rfl⟩
  | cons c front ih =>
    have line := (isKept_iff.mp (h c List.mem_cons_self)).2.1
    rw [List.cons_append, ungroup?.eq_3 _ _ _ fun d tail same _ => line same, if_neg line] at read
    obtain ⟨t, ht, rfl⟩ := Option.map_eq_some_iff.mp read
    obtain ⟨u, rfl⟩ := ih (fun c hc => h c (List.mem_cons_of_mem _ hc)) ht
    exact ⟨u, rfl⟩

theorem trimWith_append {front : List Char} (h : ∀ c ∈ front, isKept c = true)
    (some : front ≠ []) (rest : List Char) :
    ∃ t, trimWith isMargin (front ++ rest) = front ++ t := by
  have text : ∀ c ∈ front, isMargin c = false := fun c hc => (isKept_iff.mp (h c hc)).2.2
  have begin : (front ++ rest).dropWhile isMargin = front ++ rest := by
    cases front with
    | nil => exact absurd rfl some
    | cons c front => simp [text c List.mem_cons_self]
  have back : front.reverse.dropWhile isMargin = front.reverse :=
    dropWhile_of_forall fun c hc => text c (List.mem_reverse.mp hc)
  rw [trimWith, begin, List.reverse_append, List.dropWhile_append]
  split
  · exact ⟨[], by rw [back, List.reverse_reverse, List.append_nil]⟩
  · exact ⟨_, by rw [List.reverse_append, List.reverse_reverse]⟩

/-- The front of a text is still there when the text is taken for a number. -/
theorem read?_append {text : String} {front rest : List Char} (same : text.toList = front ++ rest)
    (h : ∀ c ∈ front, isKept c = true) (some : front ≠ []) {x : Binary64}
    (read : read? text = .some x) : ∃ t, signed? (front ++ t) = .some x := by
  obtain ⟨cs, first, read⟩ := Option.bind_eq_some_iff.mp read
  obtain ⟨ds, second, read⟩ := Option.bind_eq_some_iff.mp read
  rw [same] at first
  obtain ⟨t, rfl⟩ := ascii?_append h first
  obtain ⟨u, rfl⟩ := ungroup?_append h second
  obtain ⟨v, third⟩ := trimWith_append h some u
  exact ⟨v, third ▸ read⟩

/-- What starts as the name of an infinity has no value but an infinity. -/
theorem unsigned?_of_letter {negative : Bool} {rest : List Char} {x : Binary64}
    (read : unsigned? negative ('I' :: rest) = some x) : x = .infinity negative := by
  unfold unsigned? at read
  split at read
  · exact (Option.some.inj read).symm
  · exact (Option.some.inj read).symm
  · rename_i same
    have front := congrArg (fun s => s.toList.head?) same
    simp only [List.map_cons, String.toList_ofList, List.head?_cons] at front
    exact absurd front (by decide)
  · rw [decimal?_of_letter (by decide) (by decide)] at read
    cases read

end DeskCalculator.Numeral

namespace DeskCalculator.Number

theorem Binary64.isNan_round (negative : Bool) (num den : Nat) :
    (round negative num den).isNan = false := by
  unfold round
  split <;> rfl

theorem Decimal.isNan_nearest (d : Decimal) : d.nearest.isNan = false := by
  unfold nearest magnitude
  split
  · rfl
  · split
    · rfl
    · split
      · rfl
      · split <;> exact Binary64.isNan_round _ _ _

end DeskCalculator.Number
