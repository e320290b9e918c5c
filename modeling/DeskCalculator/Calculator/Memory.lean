import DeskCalculator.Calculator.State

/-! The memory register and the modes. -/
namespace DeskCalculator.Calculator.State
open Display DeskCalculator.Expr

def memoryClear (s : State) : State := { s with memory := .zero }

/-- The memory is entered as if typed. -/
def memoryRecall (p : Panel) (s : State) : State :=
  let s := s.freshen
  if p.shown (some s.memory) = p.params.errorText then s.showError p
  else { s with
    entry := Numeral.plain s.memory
    display := p.shown (some s.memory)
    waiting := false }

def memoryAdd (s : State) : State :=
  match s.currentValue? with
  | some x => { s with memory := s.memory + x }
  | none => s

def memorySubtract (s : State) : State :=
  match s.currentValue? with
  | some x => { s with memory := s.memory - x }
  | none => s

def toggleAngle (s : State) : State :=
  { s with angle := if s.angle = .degrees then .radians else .degrees }

/-- A calculation in progress does not outlast its mode. -/
def setMode (m : Mode) (s : State) : State :=
  { (if m = s.mode then s else s.clear) with mode := m }

end DeskCalculator.Calculator.State
