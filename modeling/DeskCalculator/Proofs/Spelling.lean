import DeskCalculator.Expr.Token
import DeskCalculator.Proofs.Reading

/-!
# Expressions read back

The line that shows an expression has one space between its tokens. No token's
text has a blank in it or is empty, so the words of the line are the texts of the
tokens (`words_spaced`), and no text spells two tokens (`parse_text`). Numerals
come back as they were entered, whatever their digits: `parseAll_line`.
-/

namespace DeskCalculator.Text

/-- A text that is one word. -/
def Solid (w : String) : Prop := w ≠ "" ∧ ∀ c ∈ w.toList, isBlank c = false

theorem solid_of_all {w : String} (filled : w ≠ "")
    (unbroken : w.toList.all (fun c => !isBlank c) = true) : Solid w := by
  refine ⟨filled, fun c hc => ?_⟩
  simpa using List.all_eq_true.mp unbroken c hc

theorem Solid.toList_ne_nil {w : String} (h : Solid w) : w.toList ≠ [] := by
  intro none
  exact h.1 (by rw [← String.ofList_toList (s := w), none])

theorem cut_of_forall {w : List Char} (h : ∀ c ∈ w, isBlank c = false) : cut w = (w, []) := by
  induction w with
  | nil => rfl
  | cons c w ih =>
    rw [cut, ih fun d hd => h d (List.mem_cons_of_mem _ hd)]
    simp [h c List.mem_cons_self]

/-- A word ends at the first blank. -/
theorem cut_append {w : List Char} (h : ∀ c ∈ w, isBlank c = false) {b : Char}
    (blank : isBlank b = true) (rest : List Char) : cut (w ++ b :: rest) = (w, wordsOf rest) := by
  induction w with
  | nil => simp [cut, wordsOf, blank]
  | cons c w ih =>
    rw [List.cons_append, cut, ih fun d hd => h d (List.mem_cons_of_mem _ hd)]
    simp [h c List.mem_cons_self]

theorem words_of_solid {w : String} (h : Solid w) : words w = [w] := by
  rw [words, wordsOf, cut_of_forall h.2]
  simp [h.toList_ne_nil, String.ofList_toList]

theorem words_cons {w : String} (h : Solid w) (rest : String) :
    words (w ++ " " ++ rest) = w :: words rest := by
  have line : (w ++ " " ++ rest).toList = w.toList ++ ' ' :: rest.toList := by simp
  have blank : isBlank ' ' = true := by decide
  rw [words, line, wordsOf, cut_append h.2 blank]
  simp [h.toList_ne_nil, words, String.ofList_toList]

/-- **The words of a spaced line** are the words it was made of. -/
theorem words_spaced {ws : List String} (h : ∀ w ∈ ws, Solid w) : words (spaced ws) = ws := by
  induction ws with
  | nil => decide
  | cons w rest ih =>
    have solid := h w List.mem_cons_self
    cases rest with
    | nil => exact words_of_solid solid
    | cons v rest =>
      rw [spaced.eq_3 _ _ (by simp), words_cons solid, ih fun x hx => h x (List.mem_cons_of_mem _ hx)]

theorem trim_of_solid {w : String} (h : Solid w) : trim w = w := by
  rw [trim, Numeral.trimWith_of_forall h.2, String.ofList_toList]

end DeskCalculator.Text

namespace DeskCalculator.Numeral
open Text

theorem glyph_not_blank {c : Char} (h : isGlyph c = true) : isBlank c = false := by
  cases digit : Text.isDigit c with
  | true =>
    obtain ⟨d, found⟩ := Option.isSome_iff_exists.mp digit
    obtain ⟨small, z, run, place⟩ := digit?_spec found
    rw [← Char.ofNat_toNat c, place]
    exact zeros_not_blank z run d small
  | false =>
    simp only [isGlyph, digit, Bool.false_or, List.contains_eq_mem, decide_eq_true_eq,
      List.mem_cons, List.not_mem_nil, or_false] at h
    rcases h with rfl | rfl | rfl | rfl | rfl <;> decide

theorem solid_of_accepts {s : String} (h : accepts s.toList = true) : Solid s := by
  constructor
  · rintro rfl
    cases h
  · intro c hc
    exact glyph_not_blank (accepts_glyphs h c hc)

theorem ofText?_text (n : Numeral) : ofText? n.text = some n := dif_pos n.accepted

end DeskCalculator.Numeral

namespace DeskCalculator.Expr
open Text

/-- A numeral is not found in a vocabulary without numerals. -/
theorem find?_of_accepts {α : Type} [Vocabulary α]
    (names : ∀ a ∈ Vocabulary.members (α := α),
      Numeral.accepts (Vocabulary.spelling a).toList = false)
    {s : String} (h : Numeral.accepts s.toList = true) : Vocabulary.find? α s = none := by
  rw [Vocabulary.find?, List.find?_eq_none]
  intro a ha same
  have other := names a ha
  rw [beq_iff_eq.mp same, h] at other
  cases other

namespace Token

theorem ofWord?_numeral (n : Numeral) : ofWord? n.text = some (.number n) := by
  have accepted := n.accepted
  have opening : n.text ≠ "(" := by
    intro same
    rw [same] at accepted
    exact absurd accepted (by decide)
  have closing : n.text ≠ ")" := by
    intro same
    rw [same] at accepted
    exact absurd accepted (by decide)
  rw [ofWord?, if_neg opening, if_neg closing, find?_of_accepts (by decide) accepted,
    find?_of_accepts (by decide) accepted, find?_of_accepts (by decide) accepted,
    Numeral.ofText?_text]
  rfl

theorem ofWord?_text (t : Token) : ofWord? t.text = some t := by
  cases t with
  | number n => exact ofWord?_numeral n
  | constant c => cases c <;> rfl
  | operator o => cases o <;> rfl
  | function f => cases f <;> rfl
  | opening => rfl
  | closing => rfl

theorem solid_text (t : Token) : Solid t.text := by
  cases t with
  | number n => exact Numeral.solid_of_accepts n.accepted
  | constant c => cases c <;> exact solid_of_all (by decide) (by decide)
  | operator o => cases o <;> exact solid_of_all (by decide) (by decide)
  | function f => cases f <;> exact solid_of_all (by decide) (by decide)
  | opening | closing => exact solid_of_all (by decide) (by decide)

/-- No text spells two tokens. -/
theorem parse_text (t : Token) : parse t.text = .ok t := by
  rw [parse, trim_of_solid t.solid_text, t.ofWord?_text]

theorem mapM_parse (ts : List Token) : (ts.map text).mapM parse = .ok ts := by
  induction ts with
  | nil => rfl
  | cons t ts ih =>
    rw [List.map_cons, List.mapM_cons, t.parse_text, ih]
    rfl

/-- **The line of an expression reads back** as that expression. -/
theorem parseAll_line (ts : List Token) : parseAll (line ts) = .ok ts := by
  rw [parseAll, line, words_spaced, mapM_parse]
  intro w hw
  obtain ⟨t, -, rfl⟩ := List.mem_map.mp hw
  exact t.solid_text

end Token
end DeskCalculator.Expr
