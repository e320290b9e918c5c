import DeskCalculator.Expr.Outcome
import DeskCalculator.Proofs.Enclosed

/-!
# Functions in front of a parenthesised operand

Functions in front of parentheses act one after another, from the last one on (`raw_parenthesised`).
What stands behind the parentheses comes in between: an operator there meets the value of the
last function alone, and the others act on what it makes of that (`raw_behind`).
-/

namespace DeskCalculator.Expr
open Number

/-- Functions applied to a value one after another, from the last one on. -/
def nest (angle : AngleMode) (fs : List Function) (x : Binary64) : Binary64 :=
  fs.foldr (fun f y => f.apply angle y) x

theorem nest_dropLast (angle : AngleMode) (fs : List Function) (x : Binary64) :
    nest angle fs.dropLast (nest angle fs.getLast?.toList x) = nest angle fs x := by
  rcases List.eq_nil_or_concat fs with rfl | ⟨outer, f, rfl⟩
  · rfl
  · simp [nest]

namespace Machine

theorem run_append (angle : AngleMode) (m : Machine) (xs ys : List Element) :
    run angle m (xs ++ ys) = run angle m xs >>= fun m' => run angle m' ys := by
  induction xs generalizing m with
  | nil => rfl
  | cons x xs ih =>
    simp only [List.cons_append, run]
    cases step angle m x with
    | error f => rfl
    | ok m' => exact ih m'

theorem finish_eq_ok {m : Machine} {x : Binary64} {z : Bool} :
    m.finish = .ok (x, z) ↔ m = ⟨[x], z⟩ := by
  constructor
  · intro h
    obtain ⟨stack, zeroDivisor⟩ := m
    unfold finish at h
    split at h
    · cases h
    · rename_i alone
      cases h
      simp only at alone
      rw [alone]
    · cases h
  · rintro rfl
    rfl

/-- Functions act on the value on top of the stack. -/
theorem run_functions (angle : AngleMode) (fs : List Function) (x : Binary64)
    (stack : List Binary64) (z : Bool) :
    ∃ y, run angle ⟨x :: stack, z⟩ (elements (fs.reverse.map .function)) =
      .ok ⟨nest angle fs x :: stack, y⟩ := by
  induction fs with
  | nil => exact ⟨z, rfl⟩
  | cons f fs ih =>
    obtain ⟨y, inner⟩ := ih
    refine ⟨y || f.dividesByZero (nest angle fs x), ?_⟩
    rw [List.reverse_cons, List.map_append, elements, List.map_append, run_append, inner]
    rfl

/-- What functions leave as a single value was a single value in front of them. -/
theorem of_run_functions {angle : AngleMode} {fs : List Function} {m : Machine} {v : Binary64}
    {z : Bool} (h : run angle m (elements (fs.reverse.map .function)) = .ok ⟨[v], z⟩) :
    ∃ x y, m = ⟨[x], y⟩ ∧ v = nest angle fs x := by
  induction fs generalizing v z with
  | nil => exact ⟨v, z, Except.ok.inj h, rfl⟩
  | cons f fs ih =>
    rw [List.reverse_cons, List.map_append, elements, List.map_append, run_append] at h
    obtain ⟨⟨stack, zeroDivisor⟩, inner, last⟩ := bind_eq_ok.mp h
    cases stack with
    | nil => cases last
    | cons w stack =>
      cases last
      obtain ⟨x, y, same, rfl⟩ := ih inner
      exact ⟨x, y, same, rfl⟩

end Machine

/-- What is computed of tokens, finite or not, and whether zero was divided by. -/
def raw (angle : AngleMode) (ts : List Token) : Except Fault (Binary64 × Bool) := do
  compute angle (elements (← postfixOrder (elements ts)))

section Raw
variable {angle : AngleMode} {ts inner : List Token} {x v : Binary64} {y z : Bool}

theorem raw_eq_ok : raw angle ts = .ok (x, y) ↔
    ∃ written, postfixOrder (elements ts) = .ok written ∧
      Machine.run angle .start (elements written) = .ok ⟨[x], y⟩ := by
  simp only [raw, compute, bind_eq_ok, Machine.finish_eq_ok, exists_eq_right]

theorem evaluate_of_raw (h : raw angle ts = .ok (x, y)) :
    evaluate angle (elements ts) = .ofValue x y := by
  obtain ⟨written, order, run⟩ := raw_eq_ok.mp h
  simp only [evaluate, order, evaluatePostfix, compute, run]
  rfl

theorem raw_parentheses (h : raw angle ts = .ok (x, y)) :
    raw angle (.opening :: ts ++ [.closing]) = .ok (x, y) := by
  obtain ⟨written, order, run⟩ := raw_eq_ok.mp h
  exact raw_eq_ok.mpr ⟨written, postfixOrder_parentheses order, run⟩

/-- A parenthesised operand has the functions' values one after another. -/
theorem raw_parenthesised (h : raw angle inner = .ok (x, y)) (fs : List Function) :
    ∃ z, raw angle (parenthesised fs inner) = .ok (nest angle fs x, z) := by
  obtain ⟨written, order, run⟩ := raw_eq_ok.mp h
  obtain ⟨z, applied⟩ := Machine.run_functions angle fs x [] y
  refine ⟨z, raw_eq_ok.mpr ⟨_, postfixOrder_parenthesised order fs, ?_⟩⟩
  rw [elements, List.map_append, Machine.run_append, run]
  exact applied

theorem of_raw_parenthesised (balanced : Balanced (elements inner)) {fs : List Function}
    (h : raw angle (parenthesised fs inner) = .ok (v, z)) :
    ∃ x y, raw angle inner = .ok (x, y) ∧ v = nest angle fs x := by
  obtain ⟨written, order⟩ := postfixOrder_of_balanced balanced
  obtain ⟨all, same, run⟩ := raw_eq_ok.mp h
  rw [postfixOrder_parenthesised order] at same
  cases same
  rw [elements, List.map_append, Machine.run_append] at run
  obtain ⟨m, first, last⟩ := bind_eq_ok.mp run
  obtain ⟨x, y, rfl, rfl⟩ := Machine.of_run_functions last
  exact ⟨x, y, raw_eq_ok.mpr ⟨written, order, first⟩, rfl⟩

/-- Behind a parenthesised operand an operator meets the value of the last function alone. -/
theorem raw_behind (h : raw angle inner = .ok (x, y)) (fs : List Function)
    (o : Operator) (n : Numeral) :
    ∃ z, raw angle (parenthesised fs inner ++ [.operator o, .number n]) =
      .ok (nest angle fs.dropLast (o.apply (nest angle fs.getLast?.toList x) n.value), z) := by
  obtain ⟨written, order, run⟩ := raw_eq_ok.mp h
  have alone : fs.getLast?.toList.reverse = fs.getLast?.toList := by
    cases fs.getLast? <;> rfl
  obtain ⟨z₁, inner⟩ := Machine.run_functions angle fs.getLast?.toList x [] y
  rw [alone] at inner
  obtain ⟨z, outer⟩ := Machine.run_functions angle fs.dropLast
    (o.apply (nest angle fs.getLast?.toList x) n.value) [] (z₁ || o.dividesByZero n.value)
  refine ⟨z, raw_eq_ok.mpr ⟨_, postfixOrder_behind order fs o n, ?_⟩⟩
  simp only [List.map_append, Machine.run_append, run, bind, Except.bind, inner]
  exact outer

end Raw

end DeskCalculator.Expr
