import DeskCalculator.Expr.Machine
import DeskCalculator.Expr.Postfix
import DeskCalculator.Numeral.Exact

/-! Outcome of an evaluation: a finite value, or why there is none. -/
namespace DeskCalculator.Expr
open Number

inductive Outcome where
  | value (x : Binary64)
  | failure (kind : ErrorKind) (message : Option String) (raw : Option Binary64)
  deriving DecidableEq

namespace Outcome

def ok : Outcome → Bool
  | value _ => true
  | failure .. => false

/-- A division by zero explains any value that is not finite; else nan lies
outside a domain, and an infinity is too large. -/
def ofValue (x : Binary64) (zeroDivisor : Bool) : Outcome :=
  if x.isFinite then value x
  else
    let kind : ErrorKind :=
      if zeroDivisor then .divisionByZero else if x.isNan then .domainError else .notFinite
    failure kind (some ("Result is not finite: " ++ Numeral.exact x)) (some x)

def ofFault (f : Fault) : Outcome := failure f.kind (some f.message) none

end Outcome

def evaluatePostfix (angle : AngleMode) (xs : List Element) : Outcome :=
  match compute angle xs with
  | .ok (x, zeroDivisor) => .ofValue x zeroDivisor
  | .error f => .ofFault f

def evaluate (angle : AngleMode) (xs : List Element) : Outcome :=
  match postfixOrder xs with
  | .ok postfixed => evaluatePostfix angle (postfixed.map .token)
  | .error f => .ofFault f

theorem isFinite_of_ofValue {x y : Binary64} {zeroDivisor : Bool}
    (h : Outcome.ofValue x zeroDivisor = .value y) : y.isFinite = true := by
  unfold Outcome.ofValue at h
  split at h
  · cases h
    assumption
  · cases h

theorem isFinite_of_evaluate {angle : AngleMode} {xs : List Element} {x : Binary64}
    (h : evaluate angle xs = .value x) : x.isFinite = true := by
  unfold evaluate evaluatePostfix at h
  split at h
  · split at h
    · exact isFinite_of_ofValue h
    · cases h
  · cases h

end DeskCalculator.Expr
