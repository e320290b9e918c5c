import DeskCalculator.Vocabulary

/-! The operators, functions and constants of an expression and how tightly
operators bind. -/
namespace DeskCalculator.Expr

inductive Operator where
  | add | subtract | multiply | divide | power
  deriving DecidableEq

inductive Function where
  | sin | cos | tan | ln | log | sqrt | neg | square | reciprocal
  deriving DecidableEq

inductive Constant where
  | pi | e
  deriving DecidableEq

inductive Associativity where
  | left | right
  deriving DecidableEq

inductive AngleMode where
  | radians | degrees
  deriving DecidableEq

instance : Vocabulary Operator where
  noun := "Operator"
  members := [.add, .subtract, .multiply, .divide, .power]
  spelling
    | .add => "+" | .subtract => "-" | .multiply => "*" | .divide => "/" | .power => "^"

instance : Vocabulary Function where
  noun := "Function"
  members := [.sin, .cos, .tan, .ln, .log, .sqrt, .neg, .square, .reciprocal]
  spelling
    | .sin => "sin" | .cos => "cos" | .tan => "tan" | .ln => "ln" | .log => "log"
    | .sqrt => "sqrt" | .neg => "neg" | .square => "square" | .reciprocal => "reciprocal"

instance : Vocabulary Constant where
  noun := "Constant"
  members := [.pi, .e]
  spelling | .pi => "pi" | .e => "e"

instance : Vocabulary Associativity where
  noun := "Associativity"
  members := [.left, .right]
  spelling | .left => "left" | .right => "right"

instance : Vocabulary AngleMode where
  noun := "AngleMode"
  members := [.radians, .degrees]
  spelling | .radians => "radians" | .degrees => "degrees"

namespace Operator

def precedence : Operator → Nat
  | add | subtract => 2
  | multiply | divide => 3
  | power => 4

def associativity : Operator → Associativity
  | power => .right
  | _ => .left

/-- Whether an operator that waits is complete once the next one comes. -/
def yieldsTo (waiting next : Operator) : Bool :=
  match next.associativity with
  | .left => next.precedence ≤ waiting.precedence
  | .right => next.precedence < waiting.precedence

end Operator
end DeskCalculator.Expr
