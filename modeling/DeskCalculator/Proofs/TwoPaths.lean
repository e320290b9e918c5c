import DeskCalculator.Calculator.Folding
import DeskCalculator.Proofs.Evaluation
import DeskCalculator.Proofs.RoundTrip
import DeskCalculator.Proofs.Spelling

/-!
# Folding and evaluating agree

Basic mode folds two operands by itself and records the line of the calculation.
The line holds the operands in plain form, which keeps their values but not the
sign of a zero. Of the four operations only a division tells that sign, and only
where it divides by zero, which is an error on either path. So whoever evaluates
the recorded line gets the recorded outcome: `evaluate_calculation_agrees`.
-/

namespace DeskCalculator.Number.Binary64

/-! Arithmetic without the sign of a zero -/

theorem signed_zero (s : Bool) : signed s .zero = 0 := by
  cases s <;> rfl

theorem unsignZero_sum (s t : Bool) (units : Int) :
    (sum s units).unsignZero = (sum t units).unsignZero := by
  unfold sum
  by_cases zero : units = 0
  · subst zero
    rw [Int.natAbs_zero, round_zero, round_zero]
    simp [unsignZero, Magnitude.zero]
  · rw [if_neg zero, if_neg zero]

theorem unsignZero_zero_add (s t : Bool) (y : Binary64) :
    (finite s .zero + y).unsignZero = (finite t .zero + y).unsignZero := by
  cases y with
  | nan => rfl
  | infinity u => rfl
  | finite u n =>
    rw [add_finite, add_finite, signed_zero, signed_zero]
    exact unsignZero_sum _ _ _

theorem add_comm (x y : Binary64) : x + y = y + x := by
  change add x y = add y x
  cases x <;> cases y <;> simp only [add, Bool.and_comm, Int.add_comm]
  rename_i s t
  by_cases same : s = t
  · simp [same]
  · simp [same, Ne.symm same]

theorem unsignZero_add_left (x y : Binary64) :
    (x.unsignZero + y).unsignZero = (x + y).unsignZero := by
  rcases x.unsignZero_eq_or with same | ⟨s, zero, plain⟩
  · rw [same]
  · rw [plain, zero]
    exact unsignZero_zero_add _ _ _

theorem unsignZero_add (x y : Binary64) :
    (x.unsignZero + y.unsignZero).unsignZero = (x + y).unsignZero := by
  rw [unsignZero_add_left, add_comm, unsignZero_add_left, add_comm]

theorem unsignZero_neg (y : Binary64) : (-y.unsignZero).unsignZero = (-y).unsignZero := by
  rcases y.unsignZero_eq_or with same | ⟨s, zero, plain⟩
  · rw [same]
  · rw [plain, zero]
    cases s <;> rfl

theorem unsignZero_sub (x y : Binary64) :
    (x.unsignZero - y.unsignZero).unsignZero = (x - y).unsignZero := by
  change (x.unsignZero + -y.unsignZero).unsignZero = (x + -y).unsignZero
  rw [unsignZero_add_left, ← unsignZero_add, unsignZero_neg, unsignZero_add]

theorem mul_comm (x y : Binary64) : x * y = y * x := by
  change mul x y = mul y x
  have signs (s t : Bool) : (s != t) = (t != s) := by cases s <;> cases t <;> rfl
  cases x <;> cases y <;> simp only [mul, Nat.mul_comm, signs]

theorem unsignZero_zero_mul (s t : Bool) (y : Binary64) :
    (finite s .zero * y).unsignZero = (finite t .zero * y).unsignZero := by
  cases y with
  | nan => rfl
  | infinity u => rfl
  | finite u n =>
    have product (s : Bool) : finite s .zero * finite u n = finite (s != u) .zero := zero_mul s u n
    rw [product, product]
    simp [unsignZero, Magnitude.zero]

theorem unsignZero_mul_left (x y : Binary64) :
    (x.unsignZero * y).unsignZero = (x * y).unsignZero := by
  rcases x.unsignZero_eq_or with same | ⟨s, zero, plain⟩
  · rw [same]
  · rw [plain, zero]
    exact unsignZero_zero_mul _ _ _

theorem unsignZero_mul (x y : Binary64) :
    (x.unsignZero * y.unsignZero).unsignZero = (x * y).unsignZero := by
  rw [unsignZero_mul_left, mul_comm, unsignZero_mul_left, mul_comm]

theorem zero_div (s t : Bool) {n : Magnitude} (h : n.units ≠ 0) :
    finite s .zero / finite t n = finite (s != t) .zero := by
  rw [div_finite _ _ _ h, Magnitude.zero, Nat.zero_mul]
  exact round_zero _ _

theorem unsignZero_zero_div (s t : Bool) {y : Binary64} (h : y.isZero = false) :
    (finite s .zero / y).unsignZero = (finite t .zero / y).unsignZero := by
  cases y with
  | nan => rfl
  | infinity u => cases s <;> cases t <;> cases u <;> rfl
  | finite u n =>
    have some : n.units ≠ 0 := by simpa [isZero] using h
    rw [zero_div _ _ some, zero_div _ _ some]
    simp [unsignZero, Magnitude.zero]

/-- A divisor that is not zero keeps its sign. -/
theorem unsignZero_div {y : Binary64} (h : y.isZero = false) (x : Binary64) :
    (x.unsignZero / y.unsignZero).unsignZero = (x / y).unsignZero := by
  have divisor : y.unsignZero = y := by
    rcases y.unsignZero_eq_or with same | ⟨s, zero, -⟩
    · exact same
    · rw [zero] at h
      cases h
  rw [divisor]
  rcases x.unsignZero_eq_or with same | ⟨s, zero, plain⟩
  · rw [same]
  · rw [plain, zero]
    exact unsignZero_zero_div _ _ h

/-- No double is the quotient of a finite one by zero. -/
theorem div_zero_isFinite {x y : Binary64} (finite : x.isFinite = true) (zero : y.isZero = true) :
    (x / y).isFinite = false := by
  cases x with
  | nan => cases finite
  | infinity s => cases finite
  | finite s m =>
    cases y with
    | nan => cases zero
    | infinity t => cases zero
    | finite t n =>
      have none : n.units = 0 := by simpa [isZero] using zero
      change (div _ _).isFinite = false
      rw [div, if_pos none]
      split <;> rfl

end DeskCalculator.Number.Binary64

namespace DeskCalculator.Expr
open Calculator Number Display

/-- Outcomes that tell the same: one value but for the sign of a zero, with one text
on every display, or one kind of error. -/
inductive Outcome.Agrees : Outcome → Outcome → Prop
  | value {x y : Binary64} (same : x.unsignZero = y.unsignZero)
      (shown : ∀ p : Params, render p (.value x) = render p (.value y)) :
      Agrees (.value x) (.value y)
  | failure (kind : ErrorKind) (message message' : Option String) (raw raw' : Option Binary64) :
      Agrees (.failure kind message raw) (.failure kind message' raw')

theorem agrees_of_not_finite {x y : Binary64} {divided divided' : Bool} (left : x.isFinite = false)
    (right : y.isFinite = false)
    (same : Outcome.explain x divided = Outcome.explain y divided') :
    (Outcome.ofValue x divided).Agrees (.ofValue y divided') := by
  obtain ⟨message, first⟩ := Outcome.ofValue_of_not_finite left divided
  obtain ⟨message', second⟩ := Outcome.ofValue_of_not_finite right divided'
  rw [first, second, same]
  exact .failure _ _ _ _ _

theorem agrees_ofValue {x y : Binary64} (same : x.unsignZero = y.unsignZero) (divided : Bool) :
    (Outcome.ofValue x divided).Agrees (.ofValue y divided) := by
  have finite : x.isFinite = y.isFinite := by
    rw [← x.isFinite_unsignZero, same, y.isFinite_unsignZero]
  cases known : y.isFinite with
  | true =>
    rw [Outcome.ofValue, if_pos (finite.trans known), Outcome.ofValue, if_pos known]
    refine .value same fun p => ?_
    rw [render, render, ← format_unsignZero, same, format_unsignZero]
  | false =>
    have nan : x.isNan = y.isNan := by
      rw [← x.isNan_unsignZero, same, y.isNan_unsignZero]
    apply agrees_of_not_finite (finite.trans known) known
    rw [Outcome.explain, Outcome.explain, nan]

theorem evaluate_join (angle : AngleMode) (o : Operator) (n m : Numeral) :
    evaluate angle (elements [.number n, .operator o, .number m]) =
      .ofValue (o.apply n.value m.value) (o.dividesByZero m.value) := by
  have ordered : postfixOrder (elements [.number n, .operator o, .number m]) =
      .ok (Tree.join o (.number n) (.number m)).postorder := rfl
  simp only [evaluate, ordered, evaluatePostfix, compute_postorder, Tree.value,
    Tree.zeroDivisor, Bool.false_or]

end DeskCalculator.Expr

namespace DeskCalculator.Calculator
open DeskCalculator.Expr Number

/-- What basic mode makes of an operator between two operands. -/
def BasicOperator.calculation (o : BasicOperator) (a b : Binary64) : Calculation :=
  ⟨Numeral.plain a ++ " " ++ Vocabulary.spelling o.symbol ++ " " ++ Numeral.plain b,
    .ofValue (o.fold a b) (o == .divide && b.isZero)⟩

theorem dividesByZero_symbol (o : BasicOperator) (y : Binary64) :
    o.symbol.dividesByZero y.unsignZero = (o == .divide && y.isZero) := by
  rw [Operator.dividesByZero, Binary64.isZero_unsignZero]
  cases o <;> rfl

/-- Operands without the signs of zeros do not change what a fold amounts to. -/
theorem agrees_fold (o : BasicOperator) {a : Binary64} (left : a.isFinite = true)
    (b : Binary64) :
    (Outcome.ofValue (o.symbol.apply a.unsignZero b.unsignZero)
      (o.symbol.dividesByZero b.unsignZero)).Agrees (o.calculation a b).outcome := by
  rw [BasicOperator.calculation, dividesByZero_symbol]
  cases o with
  | add => exact agrees_ofValue (Binary64.unsignZero_add a b) _
  | subtract => exact agrees_ofValue (Binary64.unsignZero_sub a b) _
  | multiply => exact agrees_ofValue (Binary64.unsignZero_mul a b) _
  | divide =>
    cases zero : b.isZero with
    | false =>
      simp only [BasicOperator.fold, zero, Bool.false_eq_true, if_false]
      exact agrees_ofValue (Binary64.unsignZero_div zero a) _
    | true =>
      apply agrees_of_not_finite
      · exact Binary64.div_zero_isFinite ((Binary64.isFinite_unsignZero a).trans left)
          ((Binary64.isZero_unsignZero b).trans zero)
      · simp [BasicOperator.fold, zero, Binary64.isFinite]
      · simp [Outcome.explain]

/-- **Evaluating what basic mode records gives what it recorded.** For any two finite
operands its calculation has a line that is read as an expression, whose outcome
under either angle mode has the recorded value but for the sign of a zero and the
same text on every display, or the recorded kind of error. -/
theorem evaluate_calculation_agrees (o : BasicOperator) {a b : Binary64}
    (left : a.isFinite = true) (right : b.isFinite = true) :
    (∀ s : State, s.pending = some o → s.first = some a → s.currentValue? = some b →
      s.basicCalculation = some (o.calculation a b)) ∧
    ∃ ts, Token.parseAll (o.calculation a b).expression = .ok ts ∧
      ∀ angle, (evaluate angle (elements ts)).Agrees (o.calculation a b).outcome := by
  constructor
  · intro s pending first second
    simp [State.basicCalculation, pending, first, second, BasicOperator.calculation]
  · let n : Numeral := ⟨Numeral.plain a, Numeral.accepts_plain left⟩
    let m : Numeral := ⟨Numeral.plain b, Numeral.accepts_plain right⟩
    have line : (o.calculation a b).expression =
        Token.line [.number n, .operator o.symbol, .number m] := by
      simp [BasicOperator.calculation, Token.line, Token.text, Text.spaced, n, m,
        String.append_assoc]
    have first : n.value = a.unsignZero := by
      rw [Numeral.value, Numeral.read?_plain, Option.getD_some]
    have second : m.value = b.unsignZero := by
      rw [Numeral.value, Numeral.read?_plain, Option.getD_some]
    refine ⟨_, line ▸ Token.parseAll_line _, fun angle => ?_⟩
    rw [evaluate_join, first, second]
    exact agrees_fold o left b

/-- The sum of two negative zeros, whose line has no sign. -/
theorem calculation_agrees_at_zero :
    let zero : Binary64 := .finite true .zero
    zero.isFinite = true ∧
    BasicOperator.add.calculation zero zero = ⟨"0 + 0", .value zero⟩ ∧
    ∃ ts, Token.parseAll (BasicOperator.add.calculation zero zero).expression = .ok ts ∧
      ∀ angle, (evaluate angle (elements ts)).Agrees
        (BasicOperator.add.calculation zero zero).outcome :=
  ⟨rfl, by decide +kernel, (evaluate_calculation_agrees .add rfl rfl).2⟩

end DeskCalculator.Calculator
