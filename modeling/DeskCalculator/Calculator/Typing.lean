import DeskCalculator.Calculator.Command
import DeskCalculator.Calculator.State

/-! Typing a number, character by character. -/
namespace DeskCalculator.Calculator.State
open Display DeskCalculator.Expr

/-- The entry after a change by typing, which the display shows. -/
def typed (entry : String) (s : State) : State :=
  { s with entry, waiting := false, lastResult := none, display := entry }

/-- A leading zero is replaced; a full entry takes no more digits. -/
def digit (p : Panel) (d : String) (s : State) : Except Halt State :=
  if !isKeypadDigit d then .error ⟨.notDigit d, s⟩
  else
    let s := s.freshen
    if p.params.maxLength ≤ s.entry.length then .ok s
    else .ok (s.typed (if s.entry = "0" then d else s.entry ++ d))

/-- One point is enough, and none goes into an exponent. -/
def decimal (s : State) : State :=
  let s := s.freshen
  if s.entry = "" then s.typed "0."
  else if s.entry.toList.contains '.' || s.entry.toList.contains 'e' then s.typed s.entry
  else s.typed (s.entry ++ ".")

/-- A sign that no digit follows goes with the digit. -/
def shortened (entry : String) : String :=
  let rest := String.ofList entry.toList.dropLast
  if rest = "-" then "" else rest

/-- Takes back the last character, or the last token once there is none. -/
def backspace (s : State) : State :=
  if s.entry ≠ "" then
    let entry := shortened s.entry
    { s with entry, display := if entry = "" then "0" else entry }
  else if s.tokens ≠ [] then { s with tokens := s.tokens.dropLast, display := "0" }
  else s

end DeskCalculator.Calculator.State
