import DeskCalculator.Expr.Machine

/-! Expression trees: their value by recursion, and their postfix order. -/
namespace DeskCalculator.Expr
open Number

inductive Tree where
  | number (n : Numeral)
  | constant (c : Constant)
  | apply (f : Function) (argument : Tree)
  | join (o : Operator) (left right : Tree)
  deriving DecidableEq

namespace Tree

def postorder : Tree → List Token
  | number n => [.number n]
  | constant c => [.constant c]
  | apply f t => t.postorder ++ [.function f]
  | join o l r => l.postorder ++ r.postorder ++ [.operator o]

def value (angle : AngleMode) : Tree → Binary64
  | number n => n.value
  | constant c => c.value
  | apply f t => f.apply angle (t.value angle)
  | join o l r => o.apply (l.value angle) (r.value angle)

/-- Whether some division in the tree has a zero divisor or some reciprocal is of zero. -/
def zeroDivisor (angle : AngleMode) : Tree → Bool
  | number _ | constant _ => false
  | apply f t => t.zeroDivisor angle || f.dividesByZero (t.value angle)
  | join o l r =>
    l.zeroDivisor angle || r.zeroDivisor angle || o.dividesByZero (r.value angle)

end Tree
end DeskCalculator.Expr
