import DeskCalculator.Proofs.Enclosed
import DeskCalculator.Proofs.RightEdge

/-!
# The operand that ends an expression

An expression, its outer parentheses closed or not, ends with a number, a constant, or a group
in parentheses with all functions in front of it (`Ending`). It is filled around that operand:
`exists_ending`.
-/

namespace DeskCalculator.Expr

/-- A group in parentheses, and functions in front of it. -/
def called : List Function → Group → Group
  | [], g => .last (.group g)
  | [f], g => .last (.call f g)
  | f :: h :: fs, g => .bare f (called (h :: fs) g)

section Called
variable {f : Function} {fs : List Function} {g : Group}

theorem called_cons (some : fs ≠ []) : called (f :: fs) g = .bare f (called fs g) := by
  cases fs with
  | nil => exact absurd rfl some
  | cons h fs => rfl

theorem opens_called : (called fs g).opens = fs.isEmpty := by
  fun_cases called fs g with
  | case1 => rfl
  | case2 f => rfl
  | case3 f h fs => rfl

theorem tokens_called : (called fs g).tokens = parenthesised fs g.tokens := by
  fun_induction called fs g with
  | case1 => rfl
  | case2 f => rfl
  | case3 f h fs g ih =>
    rw [Group.tokens, ih]
    rfl

theorem chain_called : (called fs g).chain = (fs.foldr Tree.apply g.tree, []) := by
  fun_induction called fs g with
  | case1 => rfl
  | case2 f => rfl
  | case3 f h fs g ih =>
    rw [Group.chain, ih]
    rfl

theorem proper_called : (called fs g).proper = g.proper := by
  fun_induction called fs g with
  | case1 => rfl
  | case2 f => rfl
  | case3 f h fs g ih =>
    rw [Group.proper, ih, opens_called]
    simp

end Called

/-- The operand that ends an expression. -/
inductive Ending where
  | number (n : Numeral)
  | constant (c : Constant)
  /-- A group in parentheses, and all functions in front of it. -/
  | group (fs : List Function) (inner : Group)

namespace Ending

def toGroup : Ending → Group
  | number n => .last (.number n)
  | constant c => .last (.constant c)
  | group fs g => called fs g

def tokens : Ending → List Token
  | number n => [.number n]
  | constant c => [.constant c]
  | group fs g => parenthesised fs g.tokens

def tree : Ending → Tree
  | number n => .number n
  | constant c => .constant c
  | group fs g => fs.foldr Tree.apply g.tree

def isGroup : Ending → Bool
  | group _ _ => true
  | _ => false

theorem tokens_toGroup (t : Ending) : t.toGroup.tokens = t.tokens := by
  cases t with
  | number n => rfl
  | constant c => rfl
  | group fs g => exact tokens_called

theorem chain_toGroup (t : Ending) : t.toGroup.chain = (t.tree, []) := by
  cases t with
  | number n => rfl
  | constant c => rfl
  | group fs g => exact chain_called

theorem tree_toGroup (t : Ending) : t.toGroup.tree = t.tree := by
  rw [Group.tree, chain_toGroup]
  rfl

end Ending

/-- Closing parentheses at the end are all behind a token that is none. -/
theorem exists_of_append_closing {ts rest : List Token} (xs : List Token) {t : Token} {n : Nat}
    (other : t ≠ .closing) (h : ts ++ List.replicate n .closing = xs ++ t :: rest) :
    ∃ us, ts = xs ++ t :: us ∧ us ++ List.replicate n .closing = rest := by
  have strange : t ∉ List.replicate n .closing := fun hm => other (List.eq_of_mem_replicate hm)
  rcases List.append_eq_append_iff.mp h with ⟨as, rfl, closing⟩ | ⟨us, rfl, behind⟩
  · exact absurd (by simp [closing]) strange
  · cases us with
    | nil =>
      rw [List.nil_append] at behind
      exact absurd (by simp [← behind]) strange
    | cons u us =>
      cases behind
      exact ⟨us, rfl, rfl⟩

theorem append_closing_inj {ts us : List Token} {n : Nat}
    (h : ts ++ List.replicate (n + 1) .closing = us ++ [.closing]) :
    ts ++ List.replicate n .closing = us := by
  rw [List.replicate_succ', ← List.append_assoc] at h
  exact List.append_cancel_right h

namespace Surroundings

/-- No function stands last in front. -/
def Bare (frames : Surroundings) : Prop := ∀ f, frames.tokens.getLast? ≠ some (.function f)

theorem bare_nil : Bare [] := by
  intro f h
  cases h

theorem tokens_ne_nil {frames : Surroundings} (h : frames ≠ []) : frames.tokens ≠ [] := by
  cases frames with
  | nil => exact absurd rfl h
  | cons frame frames => cases frame <;> simp [Frame.tokens]

/-- A function in front of a group belongs to it, if nothing is in between. -/
theorem bare_cons {frame : Frame} {frames : Surroundings} (bare : Bare frames)
    (h : frames ≠ [] ∨ ∀ f, frame ≠ .bare f) : Bare (frame :: frames) := by
  intro f last
  rw [tokens_cons, List.getLast?_append] at last
  cases inner : frames.tokens.getLast? with
  | some t =>
    rw [inner] at last
    exact bare f (inner.trans last)
  | none =>
    have none : frames = [] := by
      by_cases empty : frames = []
      · exact empty
      · exact absurd (List.getLast?_eq_none_iff.mp inner) (tokens_ne_nil empty)
    rw [inner, Option.none_or] at last
    cases frame with
    | bare f => exact absurd rfl ((h.resolve_left (not_not_intro none)) f)
    | more x o => simp [Frame.tokens] at last
    | group => cases last
    | call f => cases last

end Surroundings

/-- **An expression is filled around the operand that ends it.** What is around it opens the
parentheses that are missing at the end. -/
theorem exists_ending (g : Group) (proper : g.proper = true) {ts : List Token} {n : Nat}
    (h : ts ++ List.replicate n .closing = g.tokens) :
    ∃ (frames : Surroundings) (t : Ending), g = frames.fill t.toGroup ∧ frames.opens = n ∧
      (t.isGroup = true → frames.Bare) := by
  match g with
  | .last (.number m) =>
    obtain ⟨us, -, behind⟩ := exists_of_append_closing [] (by simp) h
    have none : us = [] ∧ n = 0 := by simpa using behind
    exact ⟨[], .number m, rfl, none.2.symm, by simp [Ending.isGroup]⟩
  | .last (.constant c) =>
    obtain ⟨us, -, behind⟩ := exists_of_append_closing [] (by simp) h
    have none : us = [] ∧ n = 0 := by simpa using behind
    exact ⟨[], .constant c, rfl, none.2.symm, by simp [Ending.isGroup]⟩
  | .last (.group g) =>
    cases n with
    | zero => exact ⟨[], .group [] g, rfl, rfl, fun _ => Surroundings.bare_nil⟩
    | succ n =>
      obtain ⟨us, -, behind⟩ := exists_of_append_closing [] (by simp) h
      obtain ⟨frames, t, rfl, rfl, bare⟩ := exists_ending g proper (append_closing_inj behind)
      refine ⟨.group :: frames, t, rfl, ?_, fun group => ?_⟩
      · exact Nat.add_comm _ _
      · exact Surroundings.bare_cons (bare group) (.inr (by simp))
  | .last (.call f g) =>
    cases n with
    | zero => exact ⟨[], .group [f] g, rfl, rfl, fun _ => Surroundings.bare_nil⟩
    | succ n =>
      obtain ⟨us, -, behind⟩ := exists_of_append_closing [.function f] (by simp) h
      obtain ⟨frames, t, rfl, rfl, bare⟩ := exists_ending g proper (append_closing_inj behind)
      refine ⟨.call f :: frames, t, rfl, ?_, fun group => ?_⟩
      · exact Nat.add_comm _ _
      · exact Surroundings.bare_cons (bare group) (.inr (by simp))
  | .bare f g =>
    obtain ⟨argument, plain⟩ := Bool.and_eq_true_iff.mp proper
    obtain ⟨us, -, behind⟩ := exists_of_append_closing [] (by simp) h
    obtain ⟨frames, t, rfl, rfl, bare⟩ := exists_ending g argument behind
    by_cases own : frames = [] ∧ t.isGroup = true
    · -- the function stands directly in front of the group, and is part of the operand
      obtain ⟨rfl, group⟩ := own
      cases t with
      | number m => cases group
      | constant c => cases group
      | group fs g =>
        have some : fs ≠ [] := by
          rintro rfl
          cases plain
        exact ⟨[], .group (f :: fs) g, (called_cons some).symm, rfl, bare⟩
    · refine ⟨.bare f :: frames, t, rfl, ?_, fun group => ?_⟩
      · exact Nat.zero_add _
      · exact Surroundings.bare_cons (bare group) (.inl fun none => own ⟨none, group⟩)
  | .more x o g =>
    obtain ⟨first, rest⟩ := Bool.and_eq_true_iff.mp proper
    obtain ⟨us, -, inner⟩ := exists_of_append_closing x.tokens (by simp) h
    obtain ⟨frames, t, rfl, rfl, bare⟩ := exists_ending g rest inner
    refine ⟨.more x o :: frames, t, rfl, ?_, fun group => ?_⟩
    · exact Nat.zero_add _
    · exact Surroundings.bare_cons (bare group) (.inr (by simp))

end DeskCalculator.Expr
