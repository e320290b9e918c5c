import DeskCalculator.Proofs.Evaluation

/-!
# The trees behind a stack

Each number on the stack of the machine is the value of a tree, and a token makes of these trees
what it makes of the numbers (`step_grow`). The trees are told by the tokens alone, and they give
the tokens back (`written_grow`). A tree grows from its postorder (`grow_postorder`), so no other
tree has the same one (`postorder_injective`).
-/

namespace DeskCalculator.Expr
open Number

/-- Trees that wait for what is to be made of them, the latest first. -/
abbrev Forest := List Tree

namespace Forest

/-- What a token makes of the latest trees, if there are enough of them. -/
def grow : Forest → Token → Option Forest
  | trees, .number n => some (.number n :: trees)
  | trees, .constant c => some (.constant c :: trees)
  | r :: l :: trees, .operator o => some (.join o l r :: trees)
  | t :: trees, .function f => some (.apply f t :: trees)
  | _, _ => none

/-- The tokens of all trees in the order in which they came. -/
def written : Forest → List Token
  | [] => []
  | t :: trees => written trees ++ t.postorder

/-- The machine that has computed the trees' values. -/
def machine (angle : AngleMode) (trees : Forest) : Machine :=
  ⟨trees.map (·.value angle), trees.any (·.zeroDivisor angle)⟩

variable {trees trees' : Forest} {t : Token} {ts : List Token}

theorem written_grow (h : grow trees t = some trees') : written trees' = written trees ++ [t] := by
  unfold grow at h
  split at h <;> cases h <;> simp [written, Tree.postorder]

/-- A token makes of the trees what the machine makes of their values. -/
theorem step_grow (angle : AngleMode) (h : grow trees t = some trees') :
    Machine.step angle (machine angle trees) (.token t) = .ok (machine angle trees') := by
  unfold grow at h
  split at h <;> cases h <;>
    simp [Machine.step, Machine.push, machine, Tree.value, Tree.zeroDivisor, Bool.or_comm,
      Bool.or_left_comm]

theorem foldlM_written (h : ts.foldlM grow trees = some trees') :
    written trees' = written trees ++ ts := by
  induction ts generalizing trees with
  | nil =>
    cases h
    rw [List.append_nil]
  | cons t ts ih =>
    obtain ⟨next, first, rest⟩ := Option.bind_eq_some_iff.mp h
    rw [ih rest, written_grow first, List.append_assoc, List.singleton_append]

theorem run_foldlM (angle : AngleMode) (h : ts.foldlM grow trees = some trees')
    (xs : List Element) :
    Machine.run angle (machine angle trees) (elements ts ++ xs) =
      Machine.run angle (machine angle trees') xs := by
  induction ts generalizing trees with
  | nil =>
    cases h
    rfl
  | cons t ts ih =>
    obtain ⟨next, first, rest⟩ := Option.bind_eq_some_iff.mp h
    simp only [elements, List.map_cons, List.cons_append, Machine.run, step_grow angle first]
    exact ih rest

/-- The postorder of a tree grows that tree on top of all others. -/
theorem grow_postorder (t : Tree) (trees : Forest) :
    t.postorder.foldlM grow trees = some (t :: trees) := by
  induction t generalizing trees with
  | number n => rfl
  | constant c => rfl
  | apply f t ih =>
    rw [Tree.postorder, List.foldlM_append, ih]
    rfl
  | join o l r ihl ihr =>
    rw [Tree.postorder, List.foldlM_append, List.foldlM_append, ihl, Option.bind_eq_bind,
      Option.bind_some, ihr]
    rfl

end Forest

/-- **No two trees have the same postorder.** -/
theorem Tree.postorder_injective {t u : Tree} (h : t.postorder = u.postorder) : t = u := by
  have same := Forest.grow_postorder t []
  rw [h, Forest.grow_postorder] at same
  exact (List.cons.inj (Option.some.inj same)).1.symm

end DeskCalculator.Expr
