import DeskCalculator.Calculator.BasicOperator
import DeskCalculator.Calculator.Mode
import DeskCalculator.Display.Render
import DeskCalculator.Expr.Outcome

/-! What a calculator remembers between inputs, and how it forgets. -/
namespace DeskCalculator.Calculator
open Display DeskCalculator.Expr Number

structure State where
  display : String := "0"
  /-- Basic mode: the operand before the pending operator. -/
  first : Option Binary64 := none
  pending : Option BasicOperator := none
  /-- No second operand has come since the operator was pressed. -/
  waiting : Bool := false
  memory : Binary64 := .zero
  /-- The tokens of the expression, without the number being typed. -/
  tokens : List Token := []
  /-- The number being typed, not yet a token. -/
  entry : String := ""
  /-- The display text of the last result, from which an operator continues. -/
  lastResult : Option String := none
  angle : AngleMode := .radians
  mode : Mode := .advanced
  errorShown : Bool := false
  deriving DecidableEq

/-- A fault and the state it leaves. -/
structure Halt where
  fault : Expr.Fault
  left : State
  deriving DecidableEq

namespace State

/-- Memory and modes are kept. -/
def clear (s : State) : State :=
  { s with
    display := "0"
    first := none
    pending := none
    waiting := false
    tokens := []
    entry := ""
    lastResult := none
    errorShown := false }

def clearExpression (s : State) : State := { s with tokens := [], entry := "" }

def clearEntry (s : State) : State := { s with entry := "", display := "0" }

/-- An error on the display makes the next input start from scratch. -/
def freshen (s : State) : State := if s.errorShown then s.clear else s

def showError (p : Panel) (s : State) : State :=
  { s.clear with display := p.params.errorText, errorShown := true }

/-- The tokens, and the number being typed as the last. -/
def currentTokens (s : State) : Except Expr.Fault (List Token) :=
  if s.entry = "" then .ok s.tokens else do return s.tokens ++ [← Token.ofNumeral s.entry]

def expressionLine (s : State) : Except Expr.Fault String := do return Token.line (← s.currentTokens)

/-- The value of the number being typed, or of the display. -/
def currentValue? (s : State) : Option Binary64 :=
  Numeral.read? (if s.entry = "" then s.display else s.entry)

/-- Makes the number being typed a token. -/
def commit (s : State) : Except Halt State :=
  if s.entry = "" then .ok s
  else match Token.ofNumeral s.entry with
    | .ok t => .ok { s with tokens := s.tokens ++ [t], entry := "" }
    | .error f => .error ⟨f, s⟩

end State
end DeskCalculator.Calculator
