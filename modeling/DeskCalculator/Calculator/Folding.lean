import DeskCalculator.Calculator.Expression
import DeskCalculator.Calculator.Immediate

/-! Operators of basic mode, and the end of a calculation in either mode. -/
namespace DeskCalculator.Calculator
open Display DeskCalculator.Expr Number

/-- A finished calculation: its text and its outcome. -/
structure Calculation where
  expression : String
  outcome : Outcome
  deriving DecidableEq

namespace State

/-- An operand has come: it is folded with the one before, if there is one. The
fold goes on with the value itself, not with what the display shows of it. -/
def fold (p : Panel) (o : BasicOperator) (x : Binary64) (s : State) : State :=
  let waitFor (s : State) : State := { s with pending := some o, waiting := true, entry := "" }
  match s.pending, s.first with
  | some q, some a =>
    let r := q.fold a x
    if p.shown (some r) = p.params.errorText then s.showError p
    else waitFor { s with display := p.shown (some r), first := some r }
  | _, _ => waitFor { s with first := some x }

/-- An operator pressed right after another takes its place. -/
def pressBasic (p : Panel) (o : BasicOperator) (s : State) : State :=
  if s.errorShown then s
  else if s.pending.isSome && s.waiting then { s with pending := some o }
  else match s.currentValue? with
    | some x => s.fold p o x
    | none => s

def press (p : Panel) (o : BasicOperator) (s : State) : Except Halt State :=
  match s.mode with
  | .advanced => s.element p (.token (.operator o.symbol))
  | .basic => .ok (s.pressBasic p o)

def basicCalculation (s : State) : Option Calculation := do
  let o ← s.pending
  let a ← s.first
  let b ← s.currentValue?
  return ⟨Numeral.plain a ++ " " ++ Vocabulary.spelling o.symbol ++ " " ++ Numeral.plain b,
    .ofValue (o.fold a b) (o == .divide && b.isZero)⟩

/-- The calculation that equals would finish, if there is any. -/
def calculation (s : State) : Except Expr.Fault (Option Calculation) :=
  match s.mode with
  | .basic => .ok s.basicCalculation
  | .advanced => do
    let ts ← s.currentTokens
    return if ts = [] then none else some ⟨Token.line ts, s.valueOf ts⟩

def conclude (p : Panel) (o : Outcome) (s : State) : State :=
  { s.clear with
    display := p.render o
    lastResult := if o.ok then some (p.render o) else none
    errorShown := !o.ok }

end State
end DeskCalculator.Calculator
