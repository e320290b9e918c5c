import DeskCalculator.Expr.Symbol
import DeskCalculator.Number.Elementary

/-! Values of operators, functions and constants. Nothing fails: outside its
domain a function is nan or infinite. -/
namespace DeskCalculator.Expr
open Number

/-- Zero to a negative power is positive infinity, whatever the sign of the zero. -/
def power (x y : Binary64) : Binary64 :=
  if x.isZero && y.belowZero && y.isFinite then .infinity false else x.pow y

def Operator.apply : Operator → Binary64 → Binary64 → Binary64
  | add, x, y => x + y
  | subtract, x, y => x - y
  | multiply, x, y => x * y
  | divide, x, y => x / y
  | power, x, y => Expr.power x y

def Constant.value : Constant → Binary64
  | pi => .pi
  | e => .e

/-- Only a finite angle has a sine, cosine or tangent. -/
def trigonometric (f : Binary64 → Binary64) (angle : AngleMode) (x : Binary64) : Binary64 :=
  if x.isFinite then f (if angle = .degrees then x.ofDegrees else x) else .nan

def logarithm (f : Binary64 → Binary64) (x : Binary64) : Binary64 :=
  if x.isZero then .infinity true else if x.belowZero then .nan else f x

def Function.apply (angle : AngleMode) (x : Binary64) : Function → Binary64
  | sin => trigonometric .sin angle x
  | cos => trigonometric .cos angle x
  | tan => trigonometric .tan angle x
  | ln => logarithm .ln x
  | log => logarithm .log10 x
  | sqrt => if x.belowZero then .nan else x.sqrt
  | neg => -x
  | square => x * x
  | reciprocal => if x.isZero then .infinity false else .ofInt 1 / x

/-- Whether applying the operator divides by zero. -/
def Operator.dividesByZero (o : Operator) (y : Binary64) : Bool := o == .divide && y.isZero

def Function.dividesByZero (f : Function) (x : Binary64) : Bool := f == .reciprocal && x.isZero

end DeskCalculator.Expr
