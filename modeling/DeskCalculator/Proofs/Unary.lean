import DeskCalculator.Proofs.Ending
import DeskCalculator.Proofs.ErrorFlag
import DeskCalculator.Proofs.Evaluation
import DeskCalculator.Proofs.LastOperand
import DeskCalculator.Proofs.Nested

/-!
# A function applied to the end of an expression

A number or constant at the end gives way to the text of its image, which reads back as that
image; a group stays and is wrapped. Either way one operand takes the place of another, so what
is around it means what it meant: `unary_acts_on_ending`.
-/

namespace DeskCalculator.Expr
open Number

/-- The tree that takes the place of an operand at the end: a group with the function in front
of it, a number instead of a number. -/
def Ending.Applied (f : Function) (y : Binary64) : Ending → Tree → Prop
  | .group fs g, u => u = .apply f (Ending.group fs g).tree
  | _, u => ∃ n : Numeral, u = .number n ∧ n.value = y.unsignZero

/-- A function in front of a group, which has functions in front of it or not. -/
def wrapped (f : Function) : List Function → Group → Group
  | [], g => .last (.call f g)
  | h :: fs, g => .last (.call f (called (h :: fs) g))

section Wrapped
variable {f : Function} {fs : List Function} {g : Group}

theorem tokens_wrapped :
    (wrapped f fs g).tokens = Calculator.State.applied f (parenthesised fs g.tokens) := by
  cases fs with
  | nil => rfl
  | cons h fs =>
    rw [wrapped, Group.tokens, Operand.tokens, tokens_called]
    rfl

theorem chain_wrapped : (wrapped f fs g).chain = (.apply f (Ending.group fs g).tree, []) := by
  cases fs with
  | nil => rfl
  | cons h fs =>
    rw [wrapped, Group.chain, Operand.tree, chain_called]
    rfl

theorem proper_wrapped (h : g.proper = true) : (wrapped f fs g).proper = true := by
  cases fs with
  | nil => exact h
  | cons f fs => exact proper_called.trans h

theorem opens_wrapped : (wrapped f fs g).opens = false := by
  cases fs <;> rfl

end Wrapped

theorem raw_group (angle : AngleMode) {g : Group} (proper : g.proper = true) :
    raw angle g.tokens = .ok (g.tree.value angle, g.tree.zeroDivisor angle) := by
  rw [raw, postfixOrder_eq_postorder g proper]
  exact compute_postorder angle g.tree

/-- What is around the operand at the end means what it meant when another takes its place. -/
theorem evaluate_fill (angle : AngleMode) {frames : Surroundings} {g u : Group} {t : Tree}
    (proper : (frames.fill g).proper = true) (replaced : u.proper = true)
    (plain : u.opens = false) (single : u.chain = (t, [])) :
    evaluate angle (elements (frames.tokens ++ u.tokens ++ List.replicate frames.opens .closing)) =
      .ofValue ((frames.edge.plug t).value angle) ((frames.edge.plug t).zeroDivisor angle) := by
  obtain ⟨whole, -⟩ := frames.proper_fill proper replaced (by simp [plain])
  rw [← Surroundings.tokens_fill, ← frames.tree_fill single]
  exact evaluate_of_raw (raw_group angle whole)

end DeskCalculator.Expr

namespace DeskCalculator.Calculator
open Display DeskCalculator.Expr Number Numeral

namespace State
variable {s : State}

/-- What a function makes of the operand at the end: the tokens of one operand are in its place,
or all is cleared and an error shown. -/
def Replaces (f : Function) (before : List Token) (t : Ending) (s : State) : Prop :=
  let y := f.apply s.angle (t.tree.value s.angle)
  (y.isFinite = true → ∃ (u : Group) (v : Tree),
    u.proper = true ∧ u.opens = false ∧ u.chain = (v, []) ∧
    t.Applied f y v ∧ (s.unary .standard f).currentTokens = .ok (before ++ u.tokens) ∧
    (s.unary .standard f).display = Panel.standard.shown (some y)) ∧
  (y.isFinite = false → s.unary .standard f = s.showError .standard)

theorem unary_value {before : List Token} {x y : Binary64} (f : Function)
    (operand : s.operand = .value before x) (value : f.apply s.angle x = y) :
    (∀ finite : y.isFinite = true,
      (s.unary .standard f).currentTokens =
        .ok (before ++ [.number ⟨plain y, accepts_plain finite⟩]) ∧
      (s.unary .standard f).display = Panel.standard.shown (some y)) ∧
    (y.isFinite = false → s.unary .standard f = s.showError .standard) := by
  simp only [unary, operand, value]
  constructor
  · intro finite
    have shown : ¬ Panel.standard.shown (some y) = Panel.standard.params.errorText := by
      rw [shown_eq_error_iff, finite]
      simp
    have accepted := accepts_plain finite
    have filled : plain y ≠ "" := by
      intro empty
      rw [empty] at accepted
      exact absurd accepted (by decide)
    rw [if_neg shown]
    refine ⟨?_, rfl⟩
    simp only [replace, currentTokens, if_neg filled, ofNumeral_of_accepts accepted]
    rfl
  · intro infinite
    rw [if_pos ((shown_eq_error_iff y).mpr infinite)]

theorem valueOf_wrapped (f : Function) (fs : List Function) {g : Group} (proper : g.proper = true) :
    ∃ z, s.valueOf (wrapped f fs g).tokens =
      .ofValue (f.apply s.angle ((Ending.group fs g).tree.value s.angle)) z := by
  have whole := raw_group s.angle (g := wrapped f fs g) (proper_wrapped proper)
  rw [Group.tree, chain_wrapped] at whole
  exact ⟨_, evaluate_of_raw whole⟩

theorem replaces_ending {frames : Surroundings} {t : Ending} (entry : s.entry = "")
    (tokens : s.tokens = frames.tokens ++ t.tokens) (bare : t.isGroup = true → frames.Bare)
    (proper : t.toGroup.proper = true) (f : Function) : s.Replaces f frames.tokens t := by
  have filled : s.tokens ≠ [] := by
    rw [tokens]
    cases t <;> simp [Ending.tokens, parenthesised]
  have operand := operand_of_tokens entry filled
  rw [tokens] at operand
  cases t with
  | number n =>
    obtain ⟨replaced, failed⟩ := unary_value f (operand.trans (trailing_number _ n)) rfl
    refine ⟨fun finite => ?_, failed⟩
    refine ⟨.last (.number ⟨_, accepts_plain finite⟩), _, rfl, rfl, rfl, ?_, replaced finite⟩
    exact ⟨_, rfl, value_plain finite⟩
  | constant c =>
    obtain ⟨replaced, failed⟩ := unary_value f (operand.trans (trailing_constant _ c)) rfl
    refine ⟨fun finite => ?_, failed⟩
    refine ⟨.last (.number ⟨_, accepts_plain finite⟩), _, rfl, rfl, rfl, ?_, replaced finite⟩
    exact ⟨_, rfl, value_plain finite⟩
  | group fs g =>
    have inner : g.proper = true := proper_called.symm.trans proper
    have balanced := balanced_of_postfixOrder (postfixOrder_eq_postorder g inner)
    have group := operand.trans (trailing_parenthesised fs balanced (bare rfl))
    have acted : s.unary .standard f = s.wrap .standard frames.tokens (wrapped f fs g).tokens := by
      simp only [unary, group, tokens_wrapped]
    obtain ⟨z, value⟩ := valueOf_wrapped f fs inner
    refine ⟨fun finite => ?_, fun infinite => ?_⟩
    · rw [Outcome.ofValue, if_pos finite] at value
      have kept := wrap_of_value value .standard frames.tokens
      refine ⟨wrapped f fs g, _, proper_wrapped inner, opens_wrapped, chain_wrapped, rfl, ?_, ?_⟩
      · rw [acted, kept]
        simp [currentTokens, entry]
      · rw [acted, kept]
    · rw [acted]
      apply wrap_of_not_ok
      rw [value, Outcome.ok_ofValue, infinite]

end State

/-- **A function applied to the end of an expression** acts on the operand there and on nothing
else. The expression may have parentheses open around it. What is in front of the operand stays,
the display shows the function's value, and once the parentheses are closed the expression is
evaluated as the tree it was with the operand replaced; a number is replaced by the value itself,
but for the sign of a zero. Where the value is not finite, all is cleared and an error shown. -/
theorem unary_acts_on_ending {s : State} {g : Group} {n : Nat} (entry : s.entry = "")
    (proper : g.proper = true) (tokens : s.tokens ++ List.replicate n .closing = g.tokens) :
    ∃ (before : List Token) (t : Ending) (edge : Edge),
      s.tokens = before ++ t.tokens ∧
      (t.isGroup = true → ∀ f, before.getLast? ≠ some (.function f)) ∧
      (∃ z, raw s.angle t.tokens = .ok (t.tree.value s.angle, z)) ∧
      g.tree = edge.plug t.tree ∧
      ∀ f, let y := f.apply s.angle (t.tree.value s.angle)
        let r := s.unary .standard f
        (y.isFinite = true → ∃ new u,
          r.currentTokens = .ok (before ++ new) ∧
          r.display = Panel.standard.shown (some y) ∧
          t.Applied f y u ∧
          evaluate s.angle (elements (before ++ new ++ List.replicate n .closing)) =
            .ofValue ((edge.plug u).value s.angle) ((edge.plug u).zeroDivisor s.angle)) ∧
        (y.isFinite = false →
          r.tokens = [] ∧ r.entry = "" ∧ r.errorShown = true ∧
          r.display = Panel.standard.params.errorText) := by
  obtain ⟨frames, t, rfl, rfl, bare⟩ := exists_ending g proper tokens
  have parts : s.tokens = frames.tokens ++ t.tokens := by
    rw [Surroundings.tokens_fill, t.tokens_toGroup] at tokens
    exact List.append_cancel_right tokens
  have own : t.toGroup.proper = true := Surroundings.proper_of_fill proper
  refine ⟨frames.tokens, t, frames.edge, parts, bare, ?_, frames.tree_fill t.chain_toGroup, ?_⟩
  · have value := raw_group s.angle own
    rw [t.tokens_toGroup, t.tree_toGroup] at value
    exact ⟨_, value⟩
  · intro f
    obtain ⟨replaced, failed⟩ := State.replaces_ending entry parts bare own f
    constructor
    · intro finite
      obtain ⟨u, v, kept, plain, single, applied, current, display⟩ := replaced finite
      exact ⟨u.tokens, v, current, display, applied, evaluate_fill s.angle proper kept plain single⟩
    · intro infinite
      rw [failed infinite]
      exact ⟨rfl, rfl, rfl, rfl⟩

/-- The group `5 - ( 3 )`. -/
def difference : Group :=
  .more (.number ⟨"5", by decide⟩) .subtract
    (.last (.group (.last (.number ⟨"3", by decide⟩))))

/-- The expression `5 - ( 3`. -/
def unclosed : State := { tokens := difference.tokens.dropLast }

theorem unary_acts_on_unclosed :
    difference.proper = true ∧
    unclosed.tokens ++ List.replicate 1 .closing = difference.tokens ∧
    (Function.square.apply .radians (.ofInt 3)).isFinite = true ∧
    ∃ before new,
      (unclosed.unary .standard .square).currentTokens = .ok (before ++ new) ∧
      (unclosed.unary .standard .square).display = "9" ∧
      evaluate .radians (elements (before ++ new ++ [.closing])) = .value (.ofInt (-4)) := by
  have closed : unclosed.tokens ++ List.replicate 1 .closing = difference.tokens := by decide
  have finite : (Function.square.apply .radians (.ofInt 3)).isFinite = true := by decide +kernel
  refine ⟨by decide, closed, finite, ?_⟩
  obtain ⟨before, t, edge, parts, -, -, -, acts⟩ :=
    unary_acts_on_ending (s := unclosed) (g := difference) (n := 1) rfl (by decide) closed
  have last : (before ++ t.tokens).getLast? = some (.number ⟨"3", by decide⟩) := by
    rw [← parts]
    rfl
  cases t with
  | number m =>
    have same : m = ⟨"3", by decide⟩ := by
      simpa [Ending.tokens] using last
    subst same
    obtain ⟨new, u, tokens, display, -⟩ := (acts .square).1 (by decide +kernel)
    have written : (unclosed.unary .standard .square).currentTokens =
        .ok (difference.tokens.take 3 ++ [.number ⟨"9", by decide⟩]) := by
      decide +kernel
    refine ⟨before, new, tokens, display.trans ?_, ?_⟩
    · decide +kernel
    · rw [← Except.ok.inj (written.symm.trans tokens)]
      decide +kernel
  | constant c => simp [Ending.tokens] at last
  | group fs g =>
    rw [Ending.tokens, parenthesised, ← List.append_assoc, List.getLast?_concat] at last
    cases last

end DeskCalculator.Calculator
