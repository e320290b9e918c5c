import DeskCalculator.Proofs.Enclosed
import DeskCalculator.Proofs.Spelling
import DeskCalculator.Proofs.Writing
import Mathlib.Data.List.TakeWhile
import Mathlib.Logic.ExistsUnique

/-!
# Any spacing of an expression

A text is parted into its words by blanks, however many and of whatever kind: `Parted` says so
without saying how the words are found. Every text is parted in one way (`parted_iff`). A word is
read as the one token it spells, so a line of words is read as the tokens that spell these words
in order, and as no others; written out again it has the same words, one space apart.
-/

namespace DeskCalculator.Text

def Blank (gap : List Char) : Prop := ∀ c ∈ gap, isBlank c = true

/-- The text consists of these words in this order with blanks around them, at least one
between neighbours. -/
inductive Parted : List Char → List String → Prop
  | none {gap : List Char} : Blank gap → Parted gap []
  | last {gap : List Char} {w : String} : Blank gap → Solid w → Parted (gap ++ w.toList) [w]
  | next {gap : List Char} {w : String} {b : Char} {rest : List Char} {ws : List String} :
      Blank gap → Solid w → isBlank b = true → Parted rest ws →
      Parted (gap ++ w.toList ++ b :: rest) (w :: ws)

theorem Blank.cons {b : Char} {gap : List Char} (blank : isBlank b = true) (h : Blank gap) :
    Blank (b :: gap) :=
  List.forall_mem_cons.mpr ⟨blank, h⟩

theorem Parted.solid {cs : List Char} {ws : List String} (h : Parted cs ws) :
    ∀ w ∈ ws, Solid w := by
  induction h with
  | none => simp
  | last _ solid => simpa using solid
  | next _ solid _ _ ih => exact List.forall_mem_cons.mpr ⟨solid, ih⟩

/-- A blank in front parts nothing. -/
theorem Parted.cons {b : Char} {cs : List Char} {ws : List String} (blank : isBlank b = true)
    (h : Parted cs ws) : Parted (b :: cs) ws := by
  cases h with
  | none gap => exact .none (gap.cons blank)
  | last gap solid => exact .last (gap.cons blank) solid
  | next gap solid between rest => exact .next (gap.cons blank) solid between rest

theorem cut_blank {b : Char} (blank : isBlank b = true) (cs : List Char) :
    cut (b :: cs) = ([], wordsOf cs) := by
  simp [cut, wordsOf, blank]

theorem cut_cons {c : Char} (solid : isBlank c = false) (cs : List Char) :
    cut (c :: cs) = (c :: (cut cs).1, (cut cs).2) := by
  simp [cut, solid]

theorem wordsOf_cut (cs : List Char) :
    wordsOf cs = if (cut cs).1 = [] then (cut cs).2 else (cut cs).1 :: (cut cs).2 :=
  rfl

theorem wordsOf_gap {gap : List Char} (h : Blank gap) (cs : List Char) :
    wordsOf (gap ++ cs) = wordsOf cs := by
  induction gap with
  | nil => rfl
  | cons b gap ih =>
    have blank := h b List.mem_cons_self
    rw [List.cons_append, wordsOf_cut, cut_blank blank, if_pos rfl]
    exact ih fun c hc => h c (List.mem_cons_of_mem _ hc)

/-- What is cut off a text is its first word, and a blank stands behind it or nothing does. -/
theorem cut_spec (cs : List Char) :
    (∀ c ∈ (cut cs).1, isBlank c = false) ∧
      (cs = (cut cs).1 ∧ (cut cs).2 = [] ∨
        ∃ b rest, isBlank b = true ∧ cs = (cut cs).1 ++ b :: rest ∧ (cut cs).2 = wordsOf rest) := by
  induction cs with
  | nil => exact ⟨nofun, .inl ⟨rfl, rfl⟩⟩
  | cons c cs ih =>
    cases blank : isBlank c with
    | true =>
      rw [cut_blank blank]
      exact ⟨nofun, .inr ⟨c, cs, blank, rfl, rfl⟩⟩
    | false =>
      rw [cut_cons blank]
      obtain ⟨unbroken, here | ⟨b, rest, between, here, later⟩⟩ := ih
      · exact ⟨List.forall_mem_cons.mpr ⟨blank, unbroken⟩, .inl ⟨congrArg (c :: ·) here.1, here.2⟩⟩
      · exact ⟨List.forall_mem_cons.mpr ⟨blank, unbroken⟩,
          .inr ⟨b, rest, between, congrArg (c :: ·) here, later⟩⟩

theorem parted_wordsOf (cs : List Char) : Parted cs ((wordsOf cs).map .ofList) := by
  obtain ⟨unbroken, here⟩ := cut_spec cs
  have none : Blank [] := nofun
  by_cases empty : (cut cs).1 = []
  · rw [wordsOf_cut, if_pos empty]
    obtain ⟨here, later⟩ | ⟨b, rest, blank, here, later⟩ := here
    · rw [later, here, empty]
      exact .none none
    · have shorter : rest.length < cs.length := by
        rw [here, empty]
        simp
      rw [later, here, empty]
      exact (parted_wordsOf rest).cons blank
  · have solid : Solid (.ofList (cut cs).1) := by
      refine ⟨fun h => empty ?_, by simpa using unbroken⟩
      simpa using congrArg String.toList h
    rw [wordsOf_cut, if_neg empty, List.map_cons]
    obtain ⟨here, later⟩ | ⟨b, rest, blank, here, later⟩ := here
    · rw [later]
      simpa [← here] using Parted.last none solid
    · have shorter : rest.length < cs.length := by
        have length := congrArg List.length here
        rw [List.length_append, List.length_cons] at length
        omega
      have more := Parted.next none solid blank (parted_wordsOf rest)
      rw [later]
      simpa [← here] using more
termination_by cs.length

theorem Parted.map_wordsOf {cs : List Char} {ws : List String} (h : Parted cs ws) :
    (wordsOf cs).map .ofList = ws := by
  induction h with
  | none gap =>
    have blank := wordsOf_gap gap []
    rw [List.append_nil] at blank
    rw [blank]
    rfl
  | last gap solid =>
    rw [wordsOf_gap gap]
    exact words_of_solid solid
  | next gap solid blank _ ih =>
    rw [List.append_assoc, wordsOf_gap gap, wordsOf_cut, cut_append solid.2 blank,
      if_neg solid.toList_ne_nil, List.map_cons, ih, String.ofList_toList]

/-- **Every text is parted in one way**, into its words. -/
theorem parted_iff {s : String} {ws : List String} : Parted s.toList ws ↔ words s = ws := by
  constructor
  · exact Parted.map_wordsOf
  · rintro rfl
    exact parted_wordsOf s.toList

end DeskCalculator.Text

namespace DeskCalculator.Numeral
open Text

/-- Digits of any script make a numeral. -/
theorem accepts_of_digits {cs : List Char} (filled : cs ≠ [])
    (digits : ∀ c ∈ cs, isDigit c = true) : accepts cs = true := by
  have unsigned : isUnsigned cs = true := by
    rw [isUnsigned, List.takeWhile_eq_self_iff.mpr digits, List.dropWhile_eq_nil_iff.mpr digits]
    simpa [isExponent] using filled
  exact (accepts_sign unsigned : accepts (sign false ++ cs) = true)

theorem text_of_ofText? {s : String} {n : Numeral} (h : ofText? s = some n) : n.text = s := by
  unfold ofText? at h
  split at h
  · cases h
    rfl
  · cases h

end DeskCalculator.Numeral

namespace DeskCalculator.Expr
open Text

theorem spelling_of_find? {α : Type} [Vocabulary α] {s : String} {a : α}
    (h : Vocabulary.find? α s = some a) : Vocabulary.spelling a = s := by
  rw [Vocabulary.find?] at h
  have found := List.find?_some h
  exact beq_iff_eq.mp found

namespace Token

/-- A word is read as a token that it spells. -/
theorem text_of_ofWord? {w : String} {t : Token} (h : ofWord? w = some t) : t.text = w := by
  unfold ofWord? at h
  split at h
  case isTrue opening =>
    cases h
    exact opening.symm
  split at h
  case isTrue closing =>
    cases h
    exact closing.symm
  simp only [Option.orElse_eq_orElse, Option.orElse_eq_or, Option.or_eq_some_iff,
    Option.map_eq_some_iff] at h
  rcases h with ⟨o, found, rfl⟩ | ⟨-, ⟨f, found, rfl⟩ | ⟨-, ⟨c, found, rfl⟩ | ⟨-, n, found, rfl⟩⟩⟩
  · exact spelling_of_find? found
  · exact spelling_of_find? found
  · exact spelling_of_find? found
  · exact Numeral.text_of_ofText? found

theorem parse_eq_ok_iff {w : String} (solid : Solid w) {t : Token} :
    parse w = .ok t ↔ t.text = w := by
  constructor
  · intro h
    rw [parse, trim_of_solid solid] at h
    split at h
    case h_1 t' found =>
      cases h
      exact text_of_ofWord? found
    case h_2 => cases h
  · rintro rfl
    exact t.parse_text

theorem mapM_parse_eq_ok_iff {ws : List String} (solid : ∀ w ∈ ws, Solid w) {ts : List Token} :
    ws.mapM parse = .ok ts ↔ ts.map text = ws := by
  constructor
  · intro h
    induction ws generalizing ts with
    | nil =>
      cases h
      rfl
    | cons w ws ih =>
      rw [List.mapM_cons] at h
      obtain ⟨t, first, rest⟩ := bind_eq_ok.mp h
      obtain ⟨ts, later, last⟩ := bind_eq_ok.mp rest
      cases last
      obtain ⟨solid, others⟩ := List.forall_mem_cons.mp solid
      rw [List.map_cons, (parse_eq_ok_iff solid).mp first, ih others later]
  · rintro rfl
    exact mapM_parse ts

/-- **Expression texts and tokens tell each other.** A line reads back as its tokens. A text with
any spacing is read as the tokens that spell its words, and they are written as these words one
space apart; digits of any script are a number among them. -/
theorem parseAll_and_line :
    (∀ ts, parseAll (line ts) = .ok ts) ∧
      (∀ s : String, ∃! ws, Parted s.toList ws) ∧
      (∀ (s : String) (ws : List String), Parted s.toList ws → ∀ ts,
        (parseAll s = .ok ts ↔ ts.map text = ws) ∧
          (parseAll s = .ok ts → line ts = spaced ws)) ∧
      ∀ w : String, w ≠ "" → (∀ c ∈ w.toList, isDigit c = true) →
        ∃ n : Numeral, n.text = w ∧ parseAll w = .ok [.number n] := by
  have parts (s : String) (ws : List String) (h : Parted s.toList ws) (ts : List Token) :
      parseAll s = .ok ts ↔ ts.map text = ws := by
    rw [parseAll, parted_iff.mp h]
    exact mapM_parse_eq_ok_iff h.solid
  refine ⟨parseAll_line, fun s => ⟨words s, parted_wordsOf s.toList, fun ws h => ?_⟩,
    fun s ws h ts => ⟨parts s ws h ts, fun ok => ?_⟩, fun w filled digits => ?_⟩
  · exact (parted_iff.mp h).symm
  · rw [line, (parts s ws h ts).mp ok]
  · have accepted := Numeral.accepts_of_digits (mt String.toList_eq_nil_iff.mp filled) digits
    exact ⟨⟨w, accepted⟩, rfl, parseAll_line [.number ⟨w, accepted⟩]⟩

/-- Several kinds of blanks, and a digit of another script. -/
theorem parseAll_line_mixed :
    ∃ ts, parseAll "\u00a0 1 \t+\u2003٣ " = .ok ts ∧ line ts = "1 + ٣" := by
  obtain ⟨-, -, spacing, -⟩ := parseAll_and_line
  have parted : Parted "\u00a0 1 \t+\u2003٣ ".toList ["1", "+", "٣"] := parted_iff.mpr (by decide)
  obtain ⟨same, joined⟩ := spacing _ _ parted
    [.number ⟨"1", by decide⟩, .operator .add, .number ⟨"٣", by decide⟩]
  have read := same.mpr rfl
  exact ⟨_, read, joined read⟩

end Token
end DeskCalculator.Expr
