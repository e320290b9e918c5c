import DeskCalculator.Proofs.Evaluation
import DeskCalculator.Proofs.LastOperand
import DeskCalculator.Proofs.Nested
import Mathlib.Data.List.Induction

/-!
# A percentage of a group

The group stays in the expression, divided by 100 inside new parentheses. The division meets
what the last function in front of the group makes of it, and the other functions act on the
quotient. So the operand becomes its hundredth just if they take a hundredth to a hundredth:
`percent_hundredth_iff`.
-/

namespace DeskCalculator.Calculator
open Display DeskCalculator.Expr Number

namespace State

/-- A number divided by 100. -/
def hundredth (x : Binary64) : Binary64 := x / .ofInt 100

/-- A percentage leaves the tokens before the operand, and in its place some whose value, which
the display shows, is a hundredth of the given one. -/
def Hundredth (p : Panel) (before : List Token) (v : Binary64) (s : State) : Prop :=
  ∃ new, (s.percent p).currentTokens = .ok (before ++ new) ∧
    s.valueOf new = .value (hundredth v) ∧ (s.percent p).display = p.shown (some (hundredth v))

theorem raw_percentage {angle : AngleMode} {inner : List Token} {x : Binary64} {y : Bool}
    (h : raw angle inner = .ok (x, y)) (fs : List Function) :
    ∃ z, raw angle (percentage (parenthesised fs inner)) =
      .ok (nest angle fs.dropLast (hundredth (nest angle fs.getLast?.toList x)), z) := by
  obtain ⟨z, value⟩ := raw_behind h fs .divide ⟨"100", by decide⟩
  have divisor : Numeral.value ⟨"100", by decide⟩ = .ofInt 100 := by decide +kernel
  refine ⟨z, ?_⟩
  rw [divisor] at value
  have enclosed := raw_parentheses value
  simpa [percentage, hundred, hundredth, Operator.apply] using enclosed

variable {s : State} {before inner : List Token} {fs : List Function}

theorem percent_parenthesised (p : Panel) (entry : s.entry = "")
    (tokens : s.tokens = before ++ parenthesised fs inner)
    (balanced : Balanced (elements inner))
    (bare : ∀ f, before.getLast? ≠ some (.function f)) :
    s.percent p = s.wrap p before (percentage (parenthesised fs inner)) := by
  have filled : s.tokens ≠ [] := by
    simp [tokens, parenthesised]
  have operand := operand_of_tokens entry filled
  rw [tokens, trailing_parenthesised fs balanced bare] at operand
  simp only [percent, operand]

/-- Tokens are wrapped into a hundredth just if that is their value then. -/
theorem hundredth_iff {p : Panel} {wrapped : List Token} {v w : Binary64} {z : Bool}
    (entry : s.entry = "") (percent : s.percent p = s.wrap p before wrapped)
    (value : s.valueOf wrapped = .ofValue w z) (finite : (hundredth v).isFinite = true) :
    s.Hundredth p before v ↔ w = hundredth v := by
  constructor
  · rintro ⟨new, tokens, hundredth, -⟩
    rw [percent] at tokens
    cases within : w.isFinite with
    | true =>
      rw [Outcome.ofValue, if_pos within] at value
      rw [wrap_of_value value] at tokens
      have same : wrapped = new := by simpa [currentTokens, entry] using tokens
      rw [← same, value] at hundredth
      exact Outcome.value.inj hundredth
    | false =>
      have failed : (s.valueOf wrapped).ok = false := by
        rw [value, Outcome.ok_ofValue, within]
      rw [wrap_of_not_ok failed] at tokens
      have none : before = [] ∧ new = [] := by
        simpa [currentTokens, showError, clear] using tokens
      rw [none.2] at hundredth
      cases hundredth
  · rintro rfl
    rw [Outcome.ofValue, if_pos finite] at value
    have wrapped := wrap_of_value value p before
    refine ⟨_, ?_, value, ?_⟩
    · rw [percent, wrapped]
      simp [currentTokens, entry]
    · rw [percent, wrapped]

/-- **A percentage of a group** is a hundredth of it just if the functions in front of the last
one take the hundredth of what they are applied to a hundredth of what they make of it; with
one function, or none, it is. -/
theorem percent_hundredth_iff (p : Panel) {v : Binary64} {z : Bool} (entry : s.entry = "")
    (tokens : s.tokens = before ++ parenthesised fs inner) (balanced : Balanced (elements inner))
    (bare : ∀ f, before.getLast? ≠ some (.function f))
    (value : raw s.angle (parenthesised fs inner) = .ok (v, z))
    (finite : (hundredth v).isFinite = true) :
    ∃ x, (∃ y, raw s.angle (parenthesised fs.getLast?.toList inner) = .ok (x, y)) ∧
      v = nest s.angle fs.dropLast x ∧
      (∃ y, s.valueOf (percentage (parenthesised fs inner)) =
        .ofValue (nest s.angle fs.dropLast (hundredth x)) y) ∧
      (s.Hundredth p before v ↔ nest s.angle fs.dropLast (hundredth x) = hundredth v) ∧
      (fs.length ≤ 1 → s.Hundredth p before v) := by
  obtain ⟨x, y, inside, rfl⟩ := of_raw_parenthesised balanced value
  obtain ⟨y, wrapped⟩ := raw_percentage inside fs
  have outcome := evaluate_of_raw wrapped
  have same := hundredth_iff entry (percent_parenthesised p entry tokens balanced bare)
    outcome finite
  refine ⟨_, raw_parenthesised inside _, (nest_dropLast ..).symm, ⟨y, outcome⟩, same, ?_⟩
  intro few
  have none : fs.dropLast = [] := by
    apply List.eq_nil_of_length_eq_zero
    rw [List.length_dropLast]
    omega
  rw [same, ← nest_dropLast s.angle fs x, none]
  rfl

theorem accepts_two : Numeral.accepts "2".toList = true := by decide

/-- The number 2, a token. -/
def two : Token := .number ⟨"2", accepts_two⟩

/-- The expression `2 * neg ( 2 )`. -/
def product : State :=
  { tokens := [two, .operator .multiply] ++ parenthesised [.neg] [two] }

theorem percent_hundredth_product :
    (hundredth (.ofInt (-2))).isFinite = true ∧
    product.Hundredth .standard [two, .operator .multiply] (.ofInt (-2)) := by
  have value : raw product.angle (parenthesised [.neg] [two]) = .ok (.ofInt (-2), false) := by
    decide +kernel
  have finite : (hundredth (.ofInt (-2))).isFinite = true := by decide +kernel
  obtain ⟨x, -, -, -, -, alone⟩ :=
    percent_hundredth_iff .standard (s := product) rfl rfl (by decide) (by simp) value finite
  exact ⟨finite, alone (by decide)⟩

/-- The expression `square square ( 2 )`. -/
def squares : State := { tokens := parenthesised [.square, .square] [two] }

/-- The inner square is divided, and the quotient squared. -/
theorem not_percent_hundredth_squares :
    raw squares.angle (parenthesised [.square, .square] [two]) = .ok (.ofInt 16, false) ∧
    (hundredth (.ofInt 16)).isFinite = true ∧
    Display.Panel.standard.shown (some (hundredth (.ofInt 16))) = "0.16" ∧
    (squares.percent .standard).display = "0.0016" ∧
    ¬ squares.Hundredth .standard [] (.ofInt 16) := by
  have display : (squares.percent .standard).display = "0.0016" := by decide +kernel
  have shown : Panel.standard.shown (some (hundredth (.ofInt 16))) = "0.16" := by decide +kernel
  refine ⟨by decide +kernel, by decide +kernel, shown, display, ?_⟩
  rintro ⟨new, -, -, same⟩
  rw [display, shown] at same
  exact absurd same (by decide)

end State
end DeskCalculator.Calculator
