import DeskCalculator.Expr.Arithmetic

/-! The four operators of basic mode, where they fold from left to right. -/
namespace DeskCalculator.Calculator
open DeskCalculator.Expr Number

inductive BasicOperator where
  | add | subtract | multiply | divide
  deriving DecidableEq

instance : Vocabulary BasicOperator where
  noun := "BasicOperator"
  members := [.add, .subtract, .multiply, .divide]
  spelling
    | .add => "add" | .subtract => "subtract" | .multiply => "multiply" | .divide => "divide"

namespace BasicOperator

def symbol : BasicOperator → Operator
  | add => .add
  | subtract => .subtract
  | multiply => .multiply
  | divide => .divide

/-- Anything over zero is positive infinity, whatever its sign. -/
def fold : BasicOperator → Binary64 → Binary64 → Binary64
  | add, x, y => x + y
  | subtract, x, y => x - y
  | multiply, x, y => x * y
  | divide, x, y => if y.isZero then .infinity false else x / y

end BasicOperator
end DeskCalculator.Calculator
