import DeskCalculator.Expr.Fault
import DeskCalculator.History.Store
import DeskCalculator.Settings.Load

/-! Failures of the calculator's own classes and what they report. After a failed
evaluation work can go on; a failure of the system around it needs attention first. -/
namespace DeskCalculator

inductive FailureClass where
  | evaluation | malformed | underflow | domain
  | system | persistence | configuration
  deriving DecidableEq

namespace FailureClass

def parent? : FailureClass → Option FailureClass
  | malformed | underflow | domain => some evaluation
  | persistence | configuration => some system
  | evaluation | system => none

def recoverable : FailureClass → Bool
  | evaluation | malformed | underflow | domain => true
  | system | persistence | configuration => false

/-- An evaluation failure of no closer class counts as one of the domain. -/
def kind? : FailureClass → Option Expr.ErrorKind
  | evaluation | domain => some .domainError
  | malformed => some .malformedExpression
  | underflow => some .stackUnderflow
  | system | persistence | configuration => none

end FailureClass

/-- What a failure reports beside its message, by class. -/
inductive Detail where
  | evaluation
  | malformed (position leftover : Option Int)
  | underflow (token : Option String) (required available : Option Int)
  | domain (symbol : Option String)
  | system
  | persistence (operation : Option String)
  | configuration (field : Option String) (violations : List Settings.Violation)

def Detail.class : Detail → FailureClass
  | evaluation => .evaluation
  | malformed .. => .malformed
  | underflow .. => .underflow
  | domain _ => .domain
  | system => .system
  | persistence _ => .persistence
  | configuration .. => .configuration

structure Failure where
  message : String
  detail : Detail
  context : Settings.Fields := []

namespace Failure

/-- The keys of the context in ascending order. -/
def contextKeys (f : Failure) : List String :=
  (f.context.map Prod.fst).mergeSort fun a b => decide (a ≤ b)

def detailOf : Expr.Fault → Detail
  | .unmatchedClosing position => .malformed (some position) none
  | .unclosedOpening | .parenthesisInPostfix => .malformed none none
  | .leftoverOperands n => .malformed none (some n)
  | .operatorUnderflow o n => .underflow (some (Vocabulary.spelling o)) (some 2) (some n)
  | .functionUnderflow f => .underflow (some (Vocabulary.spelling f)) (some 1) (some 0)
  | .noValue => .underflow none (some 1) (some 0)
  | .unknownToken s | .unsupportedToken s | .notNumeral s | .notDigit s => .domain (some s)
  | .missingDigit => .domain none

def ofExpr (f : Expr.Fault) : Failure := ⟨f.message, detailOf f, []⟩

def ofSettings (f : Settings.Fault) : Failure :=
  ⟨f.message, .configuration f.field f.violations, []⟩

/-- Only a fault of the store itself is of a class of the calculator's own. -/
def ofHistory? (f : History.Fault) : Option Failure :=
  f.operation.map fun operation => ⟨f.message, .persistence (some operation), []⟩

end Failure
end DeskCalculator
