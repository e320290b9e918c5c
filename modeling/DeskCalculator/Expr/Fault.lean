import DeskCalculator.Expr.Symbol

/-! What can be wrong with an expression, and the kinds of failed evaluation. -/
namespace DeskCalculator.Expr
open Text

inductive ErrorKind where
  | malformedExpression | stackUnderflow | divisionByZero | notFinite | domainError
  deriving DecidableEq

instance : Vocabulary ErrorKind where
  noun := "ErrorKind"
  members := [.malformedExpression, .stackUnderflow, .divisionByZero, .notFinite, .domainError]
  spelling
    | .malformedExpression => "malformed_expression"
    | .stackUnderflow => "stack_underflow"
    | .divisionByZero => "division_by_zero"
    | .notFinite => "not_finite"
    | .domainError => "domain_error"

inductive Fault where
  | unmatchedClosing (position : Nat)
  | unclosedOpening
  | parenthesisInPostfix
  | leftoverOperands (count : Nat)
  | operatorUnderflow (o : Operator) (available : Nat)
  | functionUnderflow (f : Function)
  | noValue
  | unknownToken (text : String)
  | unsupportedToken (text : String)
  | notNumeral (text : String)
  | notDigit (text : String)
  | missingDigit
  deriving DecidableEq

namespace Fault

def kind : Fault → ErrorKind
  | unmatchedClosing _ | unclosedOpening | parenthesisInPostfix | leftoverOperands _ =>
    .malformedExpression
  | operatorUnderflow _ _ | functionUnderflow _ | noValue => .stackUnderflow
  | unknownToken _ | unsupportedToken _ | notNumeral _ | notDigit _ | missingDigit => .domainError

def message : Fault → String
  | unmatchedClosing _ => "Closing parenthesis without a matching opening parenthesis"
  | unclosedOpening => "Unclosed opening parenthesis"
  | parenthesisInPostfix => "Parenthesis in postfix sequence"
  | leftoverOperands n => toString n ++ " operand(s) left without an operator"
  | operatorUnderflow o _ => "Operator " ++ Vocabulary.spelling o ++ " needs two operands"
  | functionUnderflow f => "Function " ++ Vocabulary.spelling f ++ " needs an operand"
  | noValue => "Expression produced no value"
  | unknownToken s => "Unknown token: " ++ quoted s
  | unsupportedToken s => "Unsupported token: " ++ quoted s
  | notNumeral s => "Not a number: " ++ quoted s
  | notDigit s => "Not a digit: " ++ quoted s
  | missingDigit => "Digit command needs a digit"

end Fault
end DeskCalculator.Expr
