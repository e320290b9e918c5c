import DeskCalculator.Calculator.Operand

/-! Entering an expression token by token. -/
namespace DeskCalculator.Calculator.State
open Display DeskCalculator.Expr

/-- A token ends the number being typed and the last result. -/
def append (t : Token) (s : State) : Except Halt State := do
  let s ← s.commit
  return { s with tokens := s.tokens ++ [t] }

/-- Shows the value of the group just closed, if it has one. -/
def showGroup (p : Panel) (s : State) : State :=
  match trailing s.tokens with
  | .group _ inner =>
    let outcome := evaluate s.angle (inner.map .token)
    if outcome.ok then { s with display := p.render outcome } else s
  | _ => s

/-- Without an operand an operator continues from the last result. -/
def continued (s : State) : State :=
  match s.lastResult with
  | some r => if s.tokens = [] ∧ s.entry = "" then { s with entry := r } else s
  | none => s

def place (p : Panel) (s : State) : Element → Except Halt State
  | .token (.number n) => do return { ← s.append (.number n) with display := n.text }
  | .token (.constant c) => do
    return { ← s.append (.constant c) with display := p.shown (some c.value) }
  | .token (.operator o) => s.continued.append (.operator o)
  | .token (.function f) => s.append (.function f)
  | .token .opening => s.append .opening
  | .token .closing => do return (← s.append .closing).showGroup p
  | .stray text => .error ⟨.unsupportedToken text, s⟩

def element (p : Panel) (x : Element) (s : State) : Except Halt State := do
  return { ← s.freshen.place p x with lastResult := none }

def text (p : Panel) (symbol : String) (s : State) : Except Halt State :=
  match Token.parse symbol with
  | .ok t => s.element p (.token t)
  | .error f => .error ⟨f, s⟩

/-- Takes back the last token, the number being typed if there is one. -/
def pop (s : State) : Except Halt (Option Token × State) :=
  if s.entry = "" then .ok (s.tokens.getLast?, { s with tokens := s.tokens.dropLast })
  else match Token.ofNumeral s.entry with
    | .ok t => .ok (some t, { s with entry := "" })
    | .error f => .error ⟨f, s⟩

/-- Basic mode has no tokens, so a constant is entered as its digits. -/
def constant (p : Panel) (c : Constant) (s : State) : Except Halt State :=
  let s := s.freshen
  match s.mode with
  | .advanced => s.element p (.token (.constant c))
  | .basic => .ok { s with
      entry := Numeral.plain c.value
      display := p.shown (some c.value)
      waiting := false }

/-- Keys for parentheses, powers and functions do nothing in basic mode. -/
def expressionKey (p : Panel) (t : Token) (s : State) : Except Halt State :=
  match s.mode with
  | .advanced => s.element p (.token t)
  | .basic => .ok s

/-- The tokens of a past calculation become the expression, its result the display. -/
def restore (p : Panel) (expression result : String) (s : State) : Except Halt State :=
  match Token.parseAll expression with
  | .ok tokens => .ok { s.clear with
      tokens
      display := result
      errorShown := result = p.params.errorText }
  | .error f => .error ⟨f, s⟩

end DeskCalculator.Calculator.State
