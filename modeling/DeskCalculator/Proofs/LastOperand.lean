import DeskCalculator.Calculator.Immediate
import DeskCalculator.Proofs.Enclosed

/-!
# The operand at the end of an expression

The parenthesis that the last one closes is looked for from the end. Read backwards, what is
between them counts parentheses as it does read forwards (`groupLength?_reverse`), so the search
ends where the balanced group begins, and the functions in front of it belong to the operand:
`trailing_parenthesised`.
-/

namespace DeskCalculator.Calculator
open Display DeskCalculator.Expr Number

/-- Read backwards, tokens change the number of parentheses to be opened as much as they change
it read forwards. -/
theorem groupLength?_reverse {n k : Nat} {ts : List Token} (h : depth? n (elements ts) = some k)
    (extra : Nat) (rest : List Token) :
    groupLength? (extra + k + 1) (ts.reverse ++ rest) =
      (groupLength? (extra + n + 1) rest).map (· + ts.length) := by
  induction ts generalizing n rest with
  | nil =>
    cases h
    simp
  | cons t ts ih =>
    obtain ⟨l, here, later⟩ := depth?_cons_eq_some.mp h
    rw [List.reverse_cons, List.append_assoc, ih later]
    have step : groupLength? (extra + l + 1) ([t] ++ rest) =
        (groupLength? (extra + n + 1) rest).map (· + 1) := by
      cases t with
      | opening =>
        cases here
        rw [List.singleton_append, groupLength?, if_neg (by omega)]
        congr 2
      | closing =>
        rw [deepen] at here
        split at here
        · cases here
        · cases here
          rw [List.singleton_append, groupLength?]
          congr 2
          omega
      | _ =>
        cases here
        rfl
    rw [step, Option.map_map]
    congr 1
    funext m
    simp
    omega

theorem takeWhile_bare {ts : List Token} (bare : ∀ f, ts.getLast? ≠ some (.function f)) :
    ts.reverse.takeWhile isFunction = [] := by
  rcases List.eq_nil_or_concat ts with rfl | ⟨front, t, rfl⟩
  · rfl
  · cases t with
    | function f => exact absurd (by simp) (bare f)
    | _ => simp [isFunction]

theorem groupStart?_parenthesised {before inner : List Token} (fs : List Function)
    (balanced : Balanced (elements inner))
    (bare : ∀ f, before.getLast? ≠ some (.function f)) :
    groupStart? (before ++ parenthesised fs inner) = some before.length := by
  have backwards : (before ++ parenthesised fs inner).reverse = .closing ::
      (inner.reverse ++ .opening :: ((fs.map Token.function).reverse ++ before.reverse)) := by
    simp [parenthesised]
  have length : groupLength? 0 (before ++ parenthesised fs inner).reverse =
      some (inner.length + 2) := by
    have inside := groupLength?_reverse balanced 0
      (.opening :: ((fs.map Token.function).reverse ++ before.reverse))
    simp only [Nat.add_zero, Nat.zero_add] at inside
    simp [backwards, groupLength?, inside]
    omega
  have front : (((before ++ parenthesised fs inner).reverse.drop (inner.length + 2)).takeWhile
      isFunction).length = fs.length := by
    have dropped : (before ++ parenthesised fs inner).reverse.drop (inner.length + 2) =
        (fs.map Token.function).reverse ++ before.reverse := by
      rw [backwards, List.drop_succ_cons, ← List.length_reverse, List.drop_append]
      simp
    have functions : ∀ t ∈ (fs.map Token.function).reverse, isFunction t = true := by
      simp [isFunction]
    rw [dropped, List.takeWhile_append_of_pos functions, takeWhile_bare bare]
    simp
  simp only [groupStart?, length, Option.map_some, front, Option.some.injEq]
  simp [parenthesised]
  omega

/-- **The operand at the end** is the balanced group there and all functions in front of it. -/
theorem trailing_parenthesised {before inner : List Token} (fs : List Function)
    (balanced : Balanced (elements inner))
    (bare : ∀ f, before.getLast? ≠ some (.function f)) :
    trailing (before ++ parenthesised fs inner) = .group before (parenthesised fs inner) := by
  have last : (before ++ parenthesised fs inner).getLast? = some .closing := by
    rw [parenthesised, ← List.append_assoc, List.getLast?_concat]
  simp only [trailing, last, groupStart?_parenthesised fs balanced bare, List.take_left,
    List.drop_left]

/-! What an operation acts on, and what it leaves -/

theorem trailing_number (before : List Token) (n : Numeral) :
    trailing (before ++ [.number n]) = .value before n.value := by
  simp [trailing]

theorem trailing_constant (before : List Token) (c : Constant) :
    trailing (before ++ [.constant c]) = .value before c.value := by
  simp [trailing]

namespace State

/-- With nothing being typed an operation acts on the end of the expression. -/
theorem operand_of_tokens {s : State} (entry : s.entry = "") (tokens : s.tokens ≠ []) :
    s.operand = trailing s.tokens := by
  rw [operand, if_neg (by simp [entry, tokens])]

theorem wrap_of_value {s : State} {wrapped : List Token} {x : Binary64}
    (h : s.valueOf wrapped = .value x) (p : Panel) (before : List Token) :
    s.wrap p before wrapped =
      { s with tokens := before ++ wrapped, display := p.shown (some x) } := by
  simp [wrap, h, Outcome.ok, Panel.render]

theorem wrap_of_not_ok {s : State} {wrapped : List Token} (h : (s.valueOf wrapped).ok = false)
    (p : Panel) (before : List Token) : s.wrap p before wrapped = s.showError p := by
  simp [wrap, h]

end State
end DeskCalculator.Calculator
