import DeskCalculator.Expr.Outcome
import DeskCalculator.Proofs.Yard

/-!
# Evaluation of groups

The stack machine runs the postorder of a tree as the tree's value by recursion
(`run_postorder`), on top of whatever is on the stack and with whatever comes
after. With the order of the yard an expression is evaluated as its parse tree:
`evaluate_group`.
-/

namespace DeskCalculator.Expr
open Number

namespace Tree

/-- The tree and all trees in it. -/
def subtrees : Tree → List Tree
  | number n => [.number n]
  | constant c => [.constant c]
  | apply f t => .apply f t :: t.subtrees
  | join o l r => .join o l r :: (l.subtrees ++ r.subtrees)

/-- Whether the last step of a tree divides by zero. -/
def divides (angle : AngleMode) : Tree → Bool
  | join .divide _ r => (r.value angle).isZero
  | apply .reciprocal t => (t.value angle).isZero
  | _ => false

theorem divides_apply (angle : AngleMode) (f : Function) (t : Tree) :
    (apply f t).divides angle = f.dividesByZero (t.value angle) := by
  cases f <;> rfl

theorem divides_join (angle : AngleMode) (o : Operator) (l r : Tree) :
    (join o l r).divides angle = o.dividesByZero (r.value angle) := by
  cases o <;> rfl

/-- A zero divisor anywhere in a tree is one of some tree in it. -/
theorem zeroDivisor_iff (angle : AngleMode) (t : Tree) :
    t.zeroDivisor angle = true ↔ ∃ u ∈ t.subtrees, u.divides angle = true := by
  induction t with
  | number n => simp [zeroDivisor, subtrees, divides]
  | constant c => simp [zeroDivisor, subtrees, divides]
  | apply f t ih =>
    simp only [zeroDivisor, Bool.or_eq_true, ih, subtrees, List.mem_cons, exists_eq_or_imp,
      divides_apply]
    exact or_comm
  | join o l r ihl ihr =>
    simp only [zeroDivisor, Bool.or_eq_true, ihl, ihr, subtrees, List.mem_cons, List.mem_append,
      exists_eq_or_imp, divides_join]
    rw [← exists_or]
    simp only [or_and_right, or_comm]

end Tree

namespace Machine

/-- Running the postorder of a tree pushes the tree's value, and remembers a zero
divisor from then on. -/
theorem run_postorder (angle : AngleMode) (t : Tree) (m : Machine) (rest : List Token) :
    run angle m (elements (t.postorder ++ rest)) =
      run angle ⟨t.value angle :: m.stack, m.zeroDivisor || t.zeroDivisor angle⟩
        (elements rest) := by
  induction t generalizing m rest with
  | number n =>
    simp [Tree.postorder, run, step, push, Tree.value, Tree.zeroDivisor, bind, Except.bind]
  | constant c =>
    simp [Tree.postorder, run, step, push, Tree.value, Tree.zeroDivisor, bind, Except.bind]
  | apply f t ih =>
    rw [Tree.postorder, List.append_assoc, ih]
    simp only [elements, List.singleton_append, List.map_cons, run, step, bind, Except.bind,
      Tree.value, Tree.zeroDivisor, Bool.or_assoc]
  | join o l r ihl ihr =>
    rw [Tree.postorder, List.append_assoc, List.append_assoc, ihl, ihr]
    simp only [elements, List.singleton_append, List.map_cons, run, step, bind, Except.bind,
      Tree.value, Tree.zeroDivisor, Bool.or_assoc]

end Machine

theorem compute_postorder (angle : AngleMode) (t : Tree) :
    compute angle (elements t.postorder) = .ok (t.value angle, t.zeroDivisor angle) := by
  have run := Machine.run_postorder angle t .start []
  rw [List.append_nil] at run
  rw [compute, run]
  rfl

namespace Outcome

/-- Why a value that is not finite is none. -/
def explain (x : Binary64) (zeroDivisor : Bool) : ErrorKind :=
  if zeroDivisor then .divisionByZero else if x.isNan then .domainError else .notFinite

theorem ok_ofValue (x : Binary64) (zeroDivisor : Bool) :
    (ofValue x zeroDivisor).ok = x.isFinite := by
  cases finite : x.isFinite <;> simp [ofValue, finite, ok]

theorem ofValue_of_not_finite {x : Binary64} (h : x.isFinite = false) (zeroDivisor : Bool) :
    ∃ message, ofValue x zeroDivisor = failure (explain x zeroDivisor) message (some x) :=
  ⟨some ("Result is not finite: " ++ Numeral.exact x), by simp [ofValue, h, explain]⟩

end Outcome

/-- **Evaluation is the recursion on the parse tree.** A group has the outcome of
its tree's value, where a zero divisor anywhere in the tree is remembered. So it
fails only if that value is not finite, and never for how it is written. -/
theorem evaluate_group (angle : AngleMode) (g : Group) (proper : g.proper = true) :
    evaluate angle (elements g.tokens) =
      .ofValue (g.tree.value angle) (g.tree.zeroDivisor angle) ∧
    (g.tree.zeroDivisor angle = true ↔ ∃ u ∈ g.tree.subtrees, u.divides angle = true) ∧
    (evaluate angle (elements g.tokens)).ok = (g.tree.value angle).isFinite ∧
    ((g.tree.value angle).isFinite = false → ∃ message,
      evaluate angle (elements g.tokens) =
        .failure (Outcome.explain (g.tree.value angle) (g.tree.zeroDivisor angle)) message
          (some (g.tree.value angle))) := by
  have outcome : evaluate angle (elements g.tokens) =
      .ofValue (g.tree.value angle) (g.tree.zeroDivisor angle) := by
    obtain ⟨s, read, ends⟩ := placeAll_start g proper
    have ordered : postfixOrder (elements g.tokens) = .ok g.tree.postorder := by
      rw [postfixOrder, read]
      exact Yard.finish_of_ends ends
    simp only [evaluate, ordered, evaluatePostfix, compute_postorder]
  refine ⟨outcome, g.tree.zeroDivisor_iff angle, ?_, ?_⟩
  · rw [outcome, Outcome.ok_ofValue]
  · intro h
    rw [outcome]
    exact Outcome.ofValue_of_not_finite h _

/-- The group `1 / ( 1 / 0 )`. -/
def recovered : Group :=
  let one : Operand := .number ⟨"1", by decide⟩
  .more one .divide (.last (.group (.more one .divide (.last (.number ⟨"0", by decide⟩)))))

/-- The infinity inside recovers, though the division by zero is remembered. -/
theorem evaluate_recovered : recovered.proper = true ∧
    evaluate .radians (elements recovered.tokens) = .value .zero ∧
    recovered.tree.zeroDivisor .radians = true := by
  have zero : Outcome.ofValue (recovered.tree.value .radians)
      (recovered.tree.zeroDivisor .radians) = .value .zero := by decide +kernel
  exact ⟨by decide, (evaluate_group .radians recovered (by decide)).1.trans zero,
    by decide +kernel⟩

end DeskCalculator.Expr
