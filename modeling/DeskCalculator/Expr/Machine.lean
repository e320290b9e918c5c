import DeskCalculator.Expr.Arithmetic
import DeskCalculator.Expr.Token
import DeskCalculator.Numeral.Reading

/-! The stack machine for postfix sequences. -/
namespace DeskCalculator.Expr
open Number

/-- Operands, the latest first, and whether a zero has been divided by. -/
structure Machine where
  stack : List Binary64
  zeroDivisor : Bool
  deriving DecidableEq

namespace Machine

def start : Machine := ⟨[], false⟩

def push (x : Binary64) (m : Machine) : Machine := { m with stack := x :: m.stack }

/-- The right operand of an operator is on top of the left one. -/
def step (angle : AngleMode) (m : Machine) : Element → Except Fault Machine
  | .token (.number n) => .ok (m.push n.value)
  | .token (.constant c) => .ok (m.push c.value)
  | .token (.operator o) =>
    match m.stack with
    | y :: x :: rest => .ok ⟨o.apply x y :: rest, m.zeroDivisor || o.dividesByZero y⟩
    | short => .error (.operatorUnderflow o short.length)
  | .token (.function f) =>
    match m.stack with
    | x :: rest => .ok ⟨f.apply angle x :: rest, m.zeroDivisor || f.dividesByZero x⟩
    | [] => .error (.functionUnderflow f)
  | .token .opening | .token .closing => .error .parenthesisInPostfix
  | .stray text => .error (.unsupportedToken text)

def run (angle : AngleMode) (m : Machine) : List Element → Except Fault Machine
  | [] => .ok m
  | x :: rest => do run angle (← step angle m x) rest

def finish (m : Machine) : Except Fault (Binary64 × Bool) :=
  match m.stack with
  | [] => .error .noValue
  | [x] => .ok (x, m.zeroDivisor)
  | _ :: rest => .error (.leftoverOperands rest.length)

end Machine

/-- The value of a postfix sequence and whether it divided by zero on the way. -/
def compute (angle : AngleMode) (xs : List Element) : Except Fault (Binary64 × Bool) := do
  (← Machine.run angle .start xs).finish

end DeskCalculator.Expr
