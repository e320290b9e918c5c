import DeskCalculator.Vocabulary

/-! The two ways of working: folding operators as they come, or entering a whole
expression first. -/
namespace DeskCalculator.Calculator

inductive Mode where
  | basic | advanced
  deriving DecidableEq

instance : Vocabulary Mode where
  noun := "CalculatorMode"
  members := [.basic, .advanced]
  spelling | .basic => "basic" | .advanced => "advanced"

end DeskCalculator.Calculator
