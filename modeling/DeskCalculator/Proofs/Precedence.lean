import DeskCalculator.Expr.Group

/-!
# Operators that wait for their right operand

Read from left to right, a chain of operands keeps the operators that may still
wait for a longer right operand, each with its left one. `climb_eq_tree`: what
comes of a chain read so is its parse tree, which joins powers first, then
products, then sums.
-/

namespace DeskCalculator.Expr

namespace Operator

theorem not_yieldsTo_power (o : Operator) : o.yieldsTo .power = false := by
  cases o <;> rfl

/-- Only a power binds from the right; all else waits no longer than it has to. -/
theorem yieldsTo_of_ne_power (o : Operator) {next : Operator} (h : next ≠ .power) :
    o.yieldsTo next = decide (next.precedence ≤ o.precedence) := by
  cases next with
  | power => exact absurd rfl h
  | add | subtract | multiply | divide => rfl

theorem precedence_le_three {o : Operator} (h : o ≠ .power) : o.precedence ≤ 3 := by
  cases o with
  | power => exact absurd rfl h
  | add | subtract | multiply | divide => decide

theorem two_le_precedence (o : Operator) : 2 ≤ o.precedence := by
  cases o <;> decide

theorem precedence_eq_three_iff (o : Operator) :
    o.precedence = 3 ↔ o = .multiply ∨ o = .divide := by
  cases o <;> decide

end Operator

/-- Operators that wait, the latest first, each with its left operand. -/
abbrev Pending := List (Operator × Tree)

namespace Pending

/-- Joins what is complete once the next operator comes. -/
def absorb (next : Operator) : Pending → Tree → Pending × Tree
  | [], x => ([], x)
  | (o, l) :: rest, x =>
    if o.yieldsTo next then absorb next rest (.join o l x) else ((o, l) :: rest, x)

/-- Joins all that waits. -/
def collapse : Pending → Tree → Tree
  | [], x => x
  | (o, l) :: rest, x => collapse rest (.join o l x)

/-- The tree of an operand and what follows it, where some operators wait already. -/
def climb : Pending → Tree → List (Operator × Tree) → Tree
  | p, x, [] => p.collapse x
  | p, x, (o, y) :: rest => climb ((o, (p.absorb o x).2) :: (p.absorb o x).1) y rest

theorem absorb_power (p : Pending) (x : Tree) : p.absorb .power x = (p, x) := by
  cases p with
  | nil => rfl
  | cons c rest => simp [absorb, Operator.not_yieldsTo_power]

theorem mem_of_mem_absorb {next : Operator} {p : Pending} {x : Tree} {c : Operator × Tree}
    (h : c ∈ (p.absorb next x).1) : c ∈ p := by
  induction p generalizing x with
  | nil => exact h
  | cons d rest ih =>
    rw [absorb] at h
    split at h
    · exact List.mem_cons_of_mem _ (ih h)
    · exact h

/-- An operator that yields to whatever comes next may as well be joined at once. -/
theorem climb_join {p : Pending} {o : Operator} {l x : Tree} {rest : List (Operator × Tree)}
    (h : ∀ c ∈ rest, o.yieldsTo c.1 = true) :
    climb ((o, l) :: p) x rest = climb p (.join o l x) rest := by
  cases rest with
  | nil => rfl
  | cons c rest =>
    have yields := h c List.mem_cons_self
    simp only [climb, absorb, yields, ↓reduceIte]

end Pending

namespace Chain

theorem powers_free (x : Tree) (rest : List (Operator × Tree)) :
    ∀ c ∈ (powers x rest).2, c.1 ≠ .power := by
  induction rest generalizing x with
  | nil => intro c hc; cases hc
  | cons d rest ih =>
    obtain ⟨o, y⟩ := d
    intro c hc
    simp only [powers] at hc
    split at hc
    · exact ih y c hc
    · rename_i other
      rcases List.mem_cons.mp hc with rfl | hc
      · exact other
      · exact ih y c hc

theorem products_free {x : Tree} {rest : List (Operator × Tree)}
    (h : ∀ c ∈ rest, c.1 ≠ .power) : ∀ c ∈ (products x rest).2, c.1.precedence = 2 := by
  induction rest generalizing x with
  | nil => intro c hc; cases hc
  | cons d rest ih =>
    obtain ⟨o, y⟩ := d
    have tail : ∀ c ∈ rest, c.1 ≠ .power := fun c hc => h c (List.mem_cons_of_mem _ hc)
    intro c hc
    simp only [products] at hc
    split at hc
    · exact ih tail c hc
    · rename_i other
      rcases List.mem_cons.mp hc with rfl | hc
      · have low := Operator.precedence_le_three (h _ List.mem_cons_self)
        have high := Operator.two_le_precedence o
        rw [← Operator.precedence_eq_three_iff] at other
        dsimp only at low ⊢
        omega
      · exact ih tail c hc

/-- Powers can be joined before all else: a power waits for the powers behind it,
and is complete as soon as anything else comes. -/
theorem climb_powers (p : Pending) (x : Tree) (rest : List (Operator × Tree)) :
    p.climb x rest = p.climb (powers x rest).1 (powers x rest).2 := by
  induction rest generalizing p x with
  | nil => rfl
  | cons c rest ih =>
    obtain ⟨o, y⟩ := c
    by_cases power : o = .power
    · subst power
      have yields : ∀ c ∈ (powers y rest).2, Operator.yieldsTo .power c.1 = true := by
        intro c hc
        have free := powers_free y rest c hc
        have low := Operator.precedence_le_three free
        rw [Operator.yieldsTo_of_ne_power _ free]
        exact decide_eq_true (Nat.le_succ_of_le low)
      calc p.climb x ((.power, y) :: rest)
          = Pending.climb ((.power, x) :: p) y rest := by
            rw [Pending.climb, Pending.absorb_power]
        _ = Pending.climb ((.power, x) :: p) (powers y rest).1 (powers y rest).2 := ih _ _
        _ = p.climb (.join .power x (powers y rest).1) (powers y rest).2 :=
            Pending.climb_join yields
        _ = _ := by simp only [powers, ↓reduceIte]
    · simp only [powers, power, ↓reduceIte, Pending.climb]
      exact ih _ _

/-- Without powers, products can be joined before the sums: a product waits for
nothing that binds as it does or less. -/
theorem climb_products {p : Pending} (sums : ∀ c ∈ p, c.1.precedence = 2) {x : Tree}
    {rest : List (Operator × Tree)} (h : ∀ c ∈ rest, c.1 ≠ .power) :
    p.climb x rest = p.climb (products x rest).1 (products x rest).2 := by
  induction rest generalizing p x with
  | nil => rfl
  | cons c rest ih =>
    obtain ⟨o, y⟩ := c
    have tail : ∀ c ∈ rest, c.1 ≠ .power := fun c hc => h c (List.mem_cons_of_mem _ hc)
    have here : o ≠ .power := h _ List.mem_cons_self
    by_cases product : o = .multiply ∨ o = .divide
    · have three := (Operator.precedence_eq_three_iff o).mpr product
      have nothing : p.absorb o x = (p, x) := by
        cases p with
        | nil => rfl
        | cons c rest =>
          have two := sums c List.mem_cons_self
          simp [Pending.absorb, Operator.yieldsTo_of_ne_power _ here, two, three]
      have yields : ∀ c ∈ rest, o.yieldsTo c.1 = true := by
        intro c hc
        rw [Operator.yieldsTo_of_ne_power _ (tail c hc), three]
        exact decide_eq_true (Operator.precedence_le_three (tail c hc))
      simp only [products, product, ↓reduceIte]
      rw [Pending.climb, nothing, Pending.climb_join yields]
      exact ih sums tail
    · simp only [products, product, ↓reduceIte, Pending.climb]
      apply ih _ tail
      intro c hc
      rcases List.mem_cons.mp hc with rfl | hc
      · have low := Operator.precedence_le_three here
        have high := Operator.two_le_precedence o
        rw [← Operator.precedence_eq_three_iff] at product
        dsimp only
        omega
      · exact sums c (Pending.mem_of_mem_absorb hc)

theorem climb_sums {x : Tree} {rest : List (Operator × Tree)}
    (h : ∀ c ∈ rest, c.1.precedence = 2) : Pending.climb [] x rest = sums x rest := by
  induction rest generalizing x with
  | nil => rfl
  | cons c rest ih =>
    obtain ⟨o, y⟩ := c
    have tail : ∀ c ∈ rest, c.1.precedence = 2 := fun c hc => h c (List.mem_cons_of_mem _ hc)
    have yields : ∀ c ∈ rest, o.yieldsTo c.1 = true := by
      intro c hc
      have two := tail c hc
      have other : c.1 ≠ .power := by intro power; simp [power, Operator.precedence] at two
      rw [Operator.yieldsTo_of_ne_power _ other, two]
      exact decide_eq_true (Operator.two_le_precedence o)
    rw [Pending.climb, Pending.absorb, Pending.climb_join yields, ih tail, sums]

/-- Reading from left to right, with the operators that are not yet complete
waiting, gives the parse tree. -/
theorem climb_eq_tree (c : Chain) : Pending.climb [] c.1 c.2 = c.tree := by
  have free := powers_free c.1 c.2
  rw [climb_powers, climb_products (by intro c hc; cases hc) free,
    climb_sums (products_free free)]
  rfl

end Chain
end DeskCalculator.Expr
