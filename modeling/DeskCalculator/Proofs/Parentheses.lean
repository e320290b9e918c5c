import DeskCalculator.Proofs.Yard

/-!
# Parentheses that match

Parentheses match if what is between them closes all it opens and no more (`Matching`). Read
from left to right with a count of what is open, a sequence fails at its first closing
parenthesis that closes none (`first_unmatched_iff`, `matched_iff`), and what the count ends with
are the parentheses that stay open: `exists_unclosed_iff`.
-/

namespace DeskCalculator.Expr

/-- How many parentheses are open once another element comes; none if it closes one where none
is open. -/
def deepen (n : Nat) : Element → Option Nat
  | .token .opening => some (n + 1)
  | .token .closing => if n = 0 then none else some (n - 1)
  | _ => some n

def depth? (n : Nat) (xs : List Element) : Option Nat := xs.foldlM deepen n

/-- All parentheses are closed, and none before it is opened. -/
def Balanced (xs : List Element) : Prop := depth? 0 xs = some 0

instance (xs : List Element) : Decidable (Balanced xs) := inferInstanceAs (Decidable (_ = _))

/-- Two places hold parentheses that match. -/
def Matching (xs : List Element) (i j : Nat) : Prop :=
  ∃ a inner b, xs = a ++ .token .opening :: (inner ++ .token .closing :: b) ∧
    a.length = i ∧ i + inner.length + 1 = j ∧ Balanced inner

/-- A place holds a closing parenthesis that none opens. -/
def Unmatched (xs : List Element) (j : Nat) : Prop :=
  xs[j]? = some (.token .closing) ∧ ∀ i, ¬ Matching xs i j

/-- A place holds an opening parenthesis that none closes. -/
def Unclosed (xs : List Element) (i : Nat) : Prop :=
  xs[i]? = some (.token .opening) ∧ ∀ j, ¬ Matching xs i j

/-! Depth -/

theorem depth?_cons (n : Nat) (x : Element) (xs : List Element) :
    depth? n (x :: xs) = (deepen n x).bind fun k => depth? k xs := rfl

theorem depth?_append (n : Nat) (xs ys : List Element) :
    depth? n (xs ++ ys) = (depth? n xs).bind fun k => depth? k ys :=
  List.foldlM_append ..

theorem depth?_cons_eq_some {n k : Nat} {x : Element} {xs : List Element} :
    depth? n (x :: xs) = some k ↔ ∃ l, deepen n x = some l ∧ depth? l xs = some k := by
  rw [depth?_cons, Option.bind_eq_some_iff]

theorem depth?_append_eq_some {n k : Nat} {xs ys : List Element} :
    depth? n (xs ++ ys) = some k ↔ ∃ l, depth? n xs = some l ∧ depth? l ys = some k := by
  rw [depth?_append, Option.bind_eq_some_iff]

/-- An element opens a parenthesis, closes one, or leaves them alone. -/
theorem deepen_eq_some {n k : Nat} {x : Element} (h : deepen n x = some k) :
    (x = .token .opening ∧ k = n + 1) ∨ (x = .token .closing ∧ n = k + 1) ∨
      (∀ m, deepen m x = some m) ∧ k = n := by
  unfold deepen at h
  split at h
  · exact .inl ⟨rfl, (Option.some.inj h).symm⟩
  · split at h
    · cases h
    · have := Option.some.inj h
      exact .inr (.inl ⟨rfl, by omega⟩)
  · rename_i other other'
    refine .inr (.inr ⟨fun m => ?_, (Option.some.inj h).symm⟩)
    unfold deepen
    split
    · exact absurd rfl other
    · exact absurd rfl other'
    · rfl

theorem deepen_eq_none {n : Nat} {x : Element} (h : deepen n x = none) :
    n = 0 ∧ x = .token .closing := by
  unfold deepen at h
  split at h
  · cases h
  · split at h
    · exact ⟨‹_›, rfl⟩
    · cases h
  · cases h

/-- What is open before a sequence stays open, if the sequence closes only its own. -/
theorem depth?_add {n k : Nat} {xs : List Element} (h : depth? n xs = some k) (m : Nat) :
    depth? (n + m) xs = some (k + m) := by
  induction xs generalizing n with
  | nil =>
    cases h
    rfl
  | cons x xs ih =>
    obtain ⟨l, here, rest⟩ := depth?_cons_eq_some.mp h
    have step : deepen (n + m) x = some (l + m) := by
      rcases deepen_eq_some here with ⟨rfl, rfl⟩ | ⟨rfl, rfl⟩ | ⟨plain, rfl⟩
      · simp only [deepen, Nat.add_right_comm]
      · rw [Nat.add_right_comm]
        rfl
      · exact plain _
    rw [depth?_cons, step]
    exact ih rest

theorem Balanced.depth? {xs : List Element} (h : Balanced xs) (n : Nat) :
    depth? n xs = some n := by
  have kept := depth?_add h n
  rwa [Nat.zero_add] at kept

/-- The depth fails at the first parenthesis that closes none. -/
theorem exists_of_depth?_eq_none {n : Nat} {xs : List Element} (h : depth? n xs = none) :
    ∃ a b, xs = a ++ .token .closing :: b ∧ depth? n a = some 0 := by
  induction xs generalizing n with
  | nil => cases h
  | cons x xs ih =>
    cases here : deepen n x with
    | none =>
      obtain ⟨rfl, rfl⟩ := deepen_eq_none here
      exact ⟨[], xs, rfl, rfl⟩
    | some k =>
      rw [depth?_cons, here] at h
      obtain ⟨a, b, rfl, depth⟩ := ih h
      refine ⟨x :: a, b, rfl, ?_⟩
      rw [depth?_cons, here]
      exact depth

/-- Of the parentheses that are open behind a sequence the last one has a balanced rest. -/
theorem exists_of_depth?_eq_succ {xs : List Element} {k : Nat} (h : depth? 0 xs = some (k + 1)) :
    ∃ a inner, xs = a ++ .token .opening :: inner ∧ depth? 0 a = some k ∧ Balanced inner := by
  induction hn : xs.length using Nat.strongRecOn generalizing xs k with
  | ind n ih =>
    rcases List.eq_nil_or_concat xs with rfl | ⟨ys, x, rfl⟩
    · cases h
    · rw [List.concat_eq_append] at h hn ⊢
      rw [List.length_append, List.length_singleton] at hn
      obtain ⟨j, before, last⟩ := depth?_append_eq_some.mp h
      obtain ⟨l, step, same⟩ := depth?_cons_eq_some.mp last
      obtain rfl : l = k + 1 := Option.some.inj same
      rcases deepen_eq_some step with ⟨rfl, here⟩ | ⟨rfl, rfl⟩ | ⟨plain, rfl⟩
      · obtain rfl : k = j := Nat.succ.inj here
        exact ⟨ys, [], rfl, before, rfl⟩
      · -- the last parenthesis open before it is closed, and the one before that is left
        obtain ⟨a, inner, rfl, depth, balanced⟩ := ih ys.length (by omega) before rfl
        rw [List.length_append, List.length_cons] at hn
        obtain ⟨b, outer, rfl, depth', balanced'⟩ := ih a.length (by omega) depth rfl
        refine ⟨b, outer ++ .token .opening :: (inner ++ [.token .closing]), by simp, depth', ?_⟩
        rw [Balanced, depth?_append, balanced', Option.bind_some, depth?_cons, deepen,
          Option.bind_some, depth?_append, balanced.depth?]
        rfl
      · obtain ⟨a, inner, rfl, depth, balanced⟩ := ih ys.length (by omega) before rfl
        refine ⟨a, inner ++ [x], by simp, depth, ?_⟩
        rw [Balanced, depth?_append, balanced, Option.bind_some, depth?_cons, plain]
        rfl

/-! Parentheses that match, told by depth -/

theorem exists_of_getElem? {xs : List Element} {i : Nat} {x : Element} (h : xs[i]? = some x) :
    ∃ a b, xs = a ++ x :: b ∧ a.length = i := by
  obtain ⟨bound, rfl⟩ := List.getElem?_eq_some_iff.mp h
  exact ⟨xs.take i, xs.drop (i + 1), by simp, by simp; omega⟩

/-- A closing parenthesis closes none just if none is open where it comes. -/
theorem unmatched_iff {a b : List Element} {k : Nat} (h : depth? 0 a = some k) :
    Unmatched (a ++ .token .closing :: b) a.length ↔ k = 0 := by
  constructor
  · rintro ⟨-, alone⟩
    apply Classical.byContradiction
    intro some
    obtain ⟨l, rfl⟩ := Nat.exists_eq_succ_of_ne_zero some
    obtain ⟨c, inner, rfl, -, balanced⟩ := exists_of_depth?_eq_succ h
    exact alone c.length ⟨c, inner, b, by simp, rfl, by simp; omega, balanced⟩
  · rintro rfl
    refine ⟨by simp, ?_⟩
    rintro i ⟨c, inner, d, same, rfl, count, balanced⟩
    have split : a ++ .token .closing :: b =
        (c ++ .token .opening :: inner) ++ .token .closing :: d := by simpa using same
    obtain ⟨rfl, -⟩ := List.append_inj split (by simp; omega)
    obtain ⟨j, -, h⟩ := depth?_append_eq_some.mp h
    rw [depth?_cons, deepen, Option.bind_some, balanced.depth?] at h
    cases h

theorem not_unmatched_of_depth? {a : List Element} {k q : Nat} (h : depth? 0 a = some k)
    (b : List Element) (inside : q < a.length) : ¬ Unmatched (a ++ b) q := by
  rintro ⟨closing, alone⟩
  rw [List.getElem?_append_left inside] at closing
  obtain ⟨c, d, rfl, rfl⟩ := exists_of_getElem? closing
  obtain ⟨l, depth, step⟩ := depth?_append_eq_some.mp h
  rw [List.append_assoc, List.cons_append] at alone
  obtain rfl := (unmatched_iff depth).mp ⟨by simp, alone⟩
  cases step

/-- In front of the first closing parenthesis that closes none all is balanced. -/
theorem first_unmatched_iff {xs : List Element} {p : Nat} :
    (Unmatched xs p ∧ ∀ q < p, ¬ Unmatched xs q) ↔
      ∃ a b, xs = a ++ .token .closing :: b ∧ a.length = p ∧ Balanced a := by
  constructor
  · rintro ⟨⟨closing, alone⟩, first⟩
    obtain ⟨a, b, rfl, rfl⟩ := exists_of_getElem? closing
    refine ⟨a, b, rfl, rfl, ?_⟩
    cases depth : depth? 0 a with
    | none =>
      obtain ⟨c, d, rfl, early⟩ := exists_of_depth?_eq_none depth
      have unmatched := (unmatched_iff (b := d ++ .token .closing :: b) early).mpr rfl
      exact absurd (by simpa using unmatched) (first c.length (by simp))
    | some k =>
      obtain rfl := (unmatched_iff depth).mp ⟨closing, alone⟩
      exact depth
  · rintro ⟨a, b, rfl, rfl, balanced⟩
    exact ⟨(unmatched_iff balanced).mpr rfl, fun q => not_unmatched_of_depth? balanced _⟩

theorem matched_iff {xs : List Element} : (∀ p, ¬ Unmatched xs p) ↔ ∃ k, depth? 0 xs = some k := by
  constructor
  · intro matched
    cases depth : depth? 0 xs with
    | none =>
      obtain ⟨a, b, rfl, early⟩ := exists_of_depth?_eq_none depth
      exact absurd ((unmatched_iff early).mpr rfl) (matched a.length)
    | some k => exact ⟨k, rfl⟩
  · rintro ⟨k, depth⟩ p unmatched
    obtain ⟨bound, -⟩ := List.getElem?_eq_some_iff.mp unmatched.1
    exact not_unmatched_of_depth? depth [] bound (by rwa [List.append_nil])

/-- Parentheses stay open just if some are open at the end. -/
theorem exists_unclosed_iff {xs : List Element} {k : Nat} (h : depth? 0 xs = some k) :
    (∃ i, Unclosed xs i) ↔ k ≠ 0 := by
  constructor
  · rintro ⟨i, opening, alone⟩ rfl
    obtain ⟨a, b, rfl, rfl⟩ := exists_of_getElem? opening
    obtain ⟨j, -, rest⟩ := depth?_append_eq_some.mp h
    rw [depth?_cons, deepen, Option.bind_some] at rest
    cases depth : depth? 0 b with
    | none =>
      obtain ⟨inner, c, rfl, balanced⟩ := exists_of_depth?_eq_none depth
      exact alone _ ⟨a, inner, c, rfl, rfl, rfl, balanced⟩
    | some l =>
      have kept := depth?_add depth (j + 1)
      rw [Nat.zero_add, rest] at kept
      cases kept
  · intro some
    obtain ⟨l, rfl⟩ := Nat.exists_eq_succ_of_ne_zero some
    obtain ⟨a, inner, rfl, -, balanced⟩ := exists_of_depth?_eq_succ h
    refine ⟨a.length, by simp, ?_⟩
    rintro j ⟨c, inner', b, same, count, -, closed⟩
    obtain ⟨-, rest⟩ := List.append_inj same count.symm
    obtain rfl := (List.cons.inj rest).2
    rw [Balanced, depth?_append, closed] at balanced
    cases balanced

end DeskCalculator.Expr
