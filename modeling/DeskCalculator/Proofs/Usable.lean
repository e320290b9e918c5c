import DeskCalculator.Expr.Outcome
import DeskCalculator.Proofs.Moderate

/-!
# What an operation goes on from

A value is `Usable` if it is finite, or if it is an infinity and the display has
shown one. A text is `Typed`, `Lasting` or `Definite` by what it may become: a
longer text, a token, or a value. What is `Soaring` is the one text that the
display makes of a finite number and that is no numeral: `lasting_shown`.
-/

namespace DeskCalculator.Number.Binary64

/-- A finite number, or an infinity if there has been one. -/
def Usable (seen : Prop) (x : Binary64) : Prop := x.isFinite = true ∨ seen ∧ x.isNan = false

theorem Usable.div_hundred {seen : Prop} {x : Binary64} (h : x.Usable seen) :
    (x / ofInt 100).Usable seen := by
  have hundred := ofInt_natCast (k := 100) (by decide)
  rw [show ((100 : Nat) : Int) = 100 from rfl] at hundred
  rw [hundred]
  have infinite (other : x.isFinite = false) := h.resolve_left (by simp [other])
  cases x with
  | nan => cases (infinite rfl).2
  | infinity s => exact .inr ⟨(infinite rfl).1, rfl⟩
  | finite s m => exact .inl (div_isFinite rfl (Nat.le_mul_of_pos_left _ (by decide)))

theorem isFinite_div_hundred (x : Binary64) : (x / ofInt 100).isFinite = x.isFinite := by
  cases finite : x.isFinite with
  | true =>
    have quotient : (x / ofInt 100).Usable False := Usable.div_hundred (.inl finite)
    exact quotient.resolve_right fun none => none.1
  | false =>
    have hundred := ofInt_natCast (k := 100) (by decide)
    rw [show ((100 : Nat) : Int) = 100 from rfl] at hundred
    rw [hundred]
    cases x with
    | nan => rfl
    | infinity s => rfl
    | finite s m => cases finite

end DeskCalculator.Number.Binary64

namespace DeskCalculator.Numeral
open Number

variable {seen : Prop}

/-- What has been typed, perhaps behind the digits of a result. -/
def Typed (seen : Prop) (text : String) : Prop :=
  Moderate text.toList ∨ seen ∧ namesInfinity text.toList = true

/-- What shows a result: a numeral, or else the name of an infinity. -/
def Lasting (seen : Prop) (text : String) : Prop :=
  accepts text.toList = true ∧ Bounded text ∨ seen ∧ namesInfinity text.toList = true

/-- A text of which an operation may take the value. -/
def Definite (seen : Prop) (text : String) : Prop := ∀ x, read? text = some x → x.Usable seen

theorem Typed.lasting {text : String} (h : Typed seen text) : Lasting seen text :=
  h.imp_left fun moderate => ⟨moderate.accepts, moderate.bounded⟩

theorem Lasting.legible {text : String} (h : Lasting seen text) : Legible text :=
  h.imp And.left And.right

theorem Lasting.seen_of_named {text : String} (h : Lasting seen text)
    (named : namesInfinity text.toList = true) : seen := by
  rcases h with ⟨accepted, -⟩ | ⟨infinite, -⟩
  · rw [not_namesInfinity accepted] at named
    cases named
  · exact infinite

theorem definite_of_namesInfinity {text : String} (named : namesInfinity text.toList = true)
    (infinite : seen) : Definite seen text := by
  intro x read
  obtain ⟨s, rfl⟩ := read?_of_namesInfinity named read
  exact .inr ⟨infinite, rfl⟩

theorem Bounded.definite {text : String} (h : Bounded text) : Definite seen text :=
  fun x read => .inl (h x read)

theorem Lasting.definite {text : String} (h : Lasting seen text) : Definite seen text := by
  rcases h with ⟨-, bounded⟩ | ⟨infinite, named⟩
  · exact bounded.definite
  · exact definite_of_namesInfinity named infinite

theorem typed_plain {x : Binary64} (h : x.Usable seen) : Typed seen (plain x) := by
  have infinite (other : x.isFinite = false) := h.resolve_left (by simp [other])
  cases x with
  | nan => cases (infinite rfl).2
  | infinity s => exact .inr ⟨(infinite rfl).1, namesInfinity_plain s⟩
  | finite s m => exact .inl (moderate_plain rfl)

theorem typed_digit {c : Char} (digit : c.isDigit = true) : Typed seen (String.singleton c) :=
  .inl ((simple_singleton digit).moderate (by simp))

theorem typed_zero_point : Typed seen "0." := .inl (simple_zero_point.moderate (by decide))

theorem definite_zero : Definite seen "0" :=
  (show Typed seen "0" from typed_digit (c := '0') (by decide)).lasting.definite

theorem Typed.digit {text : String} (h : Typed seen text) {c : Char} (digit : c.isDigit = true)
    (short : text.length < 16) : Typed seen (text ++ String.singleton c) := by
  rw [Typed, String.toList_append, String.toList_singleton]
  exact h.imp (·.digit digit short) (And.imp_right (namesInfinity_append · _))

theorem Typed.point {text : String} (h : Typed seen text) (none : '.' ∉ text.toList) :
    Typed seen (text ++ ".") := by
  rw [Typed, String.toList_append]
  exact h.imp (·.point none) (And.imp_right (namesInfinity_append · _))

end DeskCalculator.Numeral

namespace DeskCalculator.Display
open Number Numeral

theorem not_namesInfinity_error :
    namesInfinity Panel.standard.params.errorText.toList = false := by decide

/-- The text of a number past the brink. -/
def Soaring (text : String) : Prop :=
  ∃ s m, text = Panel.standard.shown (some (.finite s m)) ∧ brink < m.units

theorem soaring_of_namesInfinity {x : Binary64}
    (named : namesInfinity (Panel.standard.shown (some x)).toList = true) :
    Soaring (Panel.standard.shown (some x)) := by
  cases finite : x.isFinite with
  | false =>
    rw [shown_of_not_finite _ finite, not_namesInfinity_error] at named
    cases named
  | true =>
    cases x with
    | nan => cases finite
    | infinity s => cases finite
    | finite s m => exact ⟨s, m, rfl, (namesInfinity_shown_iff s m).mp named⟩

theorem lasting_shown {seen : Prop} {x : Binary64} (finite : x.isFinite = true)
    (noted : Soaring (Panel.standard.shown (some x)) → seen) :
    Lasting seen (Panel.standard.shown (some x)) := by
  cases named : namesInfinity (Panel.standard.shown (some x)).toList with
  | true => exact .inr ⟨noted (soaring_of_namesInfinity named), named⟩
  | false =>
    have legible := legible_shown .standard finite
    exact .inl ⟨legible.resolve_right (by simp [named]), bounded_shown x named⟩

theorem definite_shown {seen : Prop} (x : Binary64)
    (noted : Soaring (Panel.standard.shown (some x)) → seen) :
    Definite seen (Panel.standard.shown (some x)) := by
  cases finite : x.isFinite with
  | true => exact (lasting_shown finite noted).definite
  | false =>
    rw [shown_of_not_finite _ finite]
    exact bounded_error.definite

/-- What shows as anything but an error is finite. -/
theorem isFinite_of_shown {p : Panel} {x : Binary64}
    (h : p.shown (some x) ≠ p.params.errorText) : x.isFinite = true := by
  cases finite : x.isFinite with
  | true => rfl
  | false => exact absurd (shown_of_not_finite p finite) h

end DeskCalculator.Display

namespace DeskCalculator.Expr
open Number Numeral

theorem ofNumeral_of_accepts {text : String} (h : accepts text.toList = true) :
    Token.ofNumeral text = .ok (.number ⟨text, h⟩) := by
  simp [Token.ofNumeral, Numeral.ofText?, h]

theorem ofNumeral_of_namesInfinity {text : String} (h : namesInfinity text.toList = true) :
    Token.ofNumeral text = .error (.notNumeral text) := by
  simp [Token.ofNumeral, Numeral.ofText?, not_accepts_of_namesInfinity h]

theorem ofNumeral_iff {text : String} (h : Legible text) :
    (∃ t, Token.ofNumeral text = .ok t) ↔ namesInfinity text.toList = false := by
  rcases h with accepted | named
  · simp [ofNumeral_of_accepts accepted, not_namesInfinity accepted]
  · simp [ofNumeral_of_namesInfinity named, named]

/-- Every number among the tokens is finite. -/
def AllFinite (ts : List Token) : Prop := ∀ n, Token.number n ∈ ts → n.value.isFinite = true

theorem AllFinite.subset {ts us : List Token} (h : AllFinite ts) (part : us ⊆ ts) : AllFinite us :=
  fun n hn => h n (part hn)

theorem AllFinite.append {ts us : List Token} (h : AllFinite ts) (h' : AllFinite us) :
    AllFinite (ts ++ us) :=
  fun n hn => (List.mem_append.mp hn).elim (h n) (h' n)

theorem allFinite_singleton {t : Token} (other : ∀ n, t ≠ .number n) : AllFinite [t] :=
  fun n hn => absurd (List.mem_singleton.mp hn).symm (other n)

theorem allFinite_nil : AllFinite [] := fun _ h => absurd h List.not_mem_nil

theorem value_isFinite {n : Numeral} (h : Bounded n.text) : n.value.isFinite = true := by
  obtain ⟨d, read⟩ := read?_of_accepts n.accepted
  rw [value, read]
  exact h _ read

/-- The outcome is a finite value that shows as an infinity. -/
def Outcome.Soars (o : Outcome) : Prop := ∃ s m, o = .value (.finite s m) ∧ brink < m.units

end DeskCalculator.Expr
