import DeskCalculator.Calculator.Operand

/-! Operations that act at once on the last operand. A value is replaced by its
image; a group stays in the expression and is wrapped. -/
namespace DeskCalculator.Calculator.State
open Display DeskCalculator.Expr Number

def hundred : Token := .number ⟨"100", by decide⟩

/-- A percentage of a group is the group divided by 100, in parentheses. -/
def percentage (inner : List Token) : List Token :=
  .opening :: inner ++ [.operator .divide, hundred, .closing]

/-- A function needs no parentheses of its own in front of plain ones. -/
def applied (f : Function) : List Token → List Token
  | .opening :: rest => .function f :: .opening :: rest
  | inner => .function f :: .opening :: inner ++ [.closing]

def valueOf (s : State) (ts : List Token) : Outcome := evaluate s.angle (ts.map .token)

/-- Puts a wrapped group at the end of the expression, if it has a value. -/
def wrap (p : Panel) (before wrapped : List Token) (s : State) : State :=
  let outcome := s.valueOf wrapped
  if outcome.ok then { s with tokens := before ++ wrapped, display := p.render outcome }
  else s.showError p

/-- Puts a number in the place of an operand, as if it had been typed. -/
def replace (p : Panel) (before : List Token) (x : Binary64) (s : State) : State :=
  { s with tokens := before, entry := Numeral.plain x, display := p.shown (some x) }

def percent (p : Panel) (s : State) : State :=
  match s.operand with
  | .group before inner => s.wrap p before (percentage inner)
  | .value before x => s.replace p before (x / .ofInt 100)
  | .absent => s

/-- A value without a text of its own shows as an error, and so does one whose
text is the text for errors. -/
def unary (p : Panel) (f : Function) (s : State) : State :=
  match s.operand with
  | .group before inner => s.wrap p before (applied f inner)
  | .value before x =>
    let y := f.apply s.angle x
    if p.shown (some y) = p.params.errorText then s.showError p else s.replace p before y
  | .absent => s

end DeskCalculator.Calculator.State
