import DeskCalculator.Expr.Token

/-! Postfix order. Operands go straight to the output. An operator waits until
one comes that binds no tighter; a function waits until its parenthesis closes
or, written without one, until the group around it ends. -/
namespace DeskCalculator.Expr

inductive Waiting where
  | operator (o : Operator)
  | function (f : Function)
  | opening
  deriving DecidableEq

/-- The yard that tokens are sorted in: output so far in order, and what waits,
the latest first. -/
structure Yard where
  output : List Token
  waiting : List Waiting
  deriving DecidableEq

namespace Yard

def start : Yard := ⟨[], []⟩

/-- The operators on top that are complete once the next one comes. -/
def release (next : Operator) : List Waiting → List Token × List Waiting
  | .operator o :: rest =>
    if o.yieldsTo next then
      let (out, left) := release next rest
      (.operator o :: out, left)
    else ([], .operator o :: rest)
  | waiting => ([], waiting)

/-- All that waits above the latest opening parenthesis, and what waits below it. -/
def close? : List Waiting → Option (List Token × List Waiting)
  | [] => none
  | .opening :: rest => some ([], rest)
  | .operator o :: rest => (close? rest).map fun (out, left) => (.operator o :: out, left)
  | .function f :: rest => (close? rest).map fun (out, left) => (.function f :: out, left)

/-- A function in front of a group takes it as soon as it closes. -/
def take : List Waiting → List Token × List Waiting
  | .function f :: rest => ([.function f], rest)
  | waiting => ([], waiting)

def place (position : Nat) (s : Yard) : Element → Except Fault Yard
  | .token (.number n) => .ok ⟨s.output ++ [.number n], s.waiting⟩
  | .token (.constant c) => .ok ⟨s.output ++ [.constant c], s.waiting⟩
  | .token (.operator o) =>
    let (out, left) := release o s.waiting
    .ok ⟨s.output ++ out, .operator o :: left⟩
  | .token (.function f) => .ok ⟨s.output, .function f :: s.waiting⟩
  | .token .opening => .ok ⟨s.output, .opening :: s.waiting⟩
  | .token .closing =>
    match close? s.waiting with
    | none => .error (.unmatchedClosing position)
    | some (out, below) =>
      let (applied, left) := take below
      .ok ⟨s.output ++ out ++ applied, left⟩
  | .stray text => .error (.unsupportedToken text)

def placeAll (position : Nat) (s : Yard) : List Element → Except Fault Yard
  | [] => .ok s
  | x :: rest => do placeAll (position + 1) (← place position s x) rest

/-- All that waits at the end, if no parenthesis does. -/
def drain? : List Waiting → Option (List Token)
  | [] => some []
  | .opening :: _ => none
  | .operator o :: rest => (drain? rest).map (.operator o :: ·)
  | .function f :: rest => (drain? rest).map (.function f :: ·)

def finish (s : Yard) : Except Fault (List Token) :=
  match drain? s.waiting with
  | some out => .ok (s.output ++ out)
  | none => .error .unclosedOpening

end Yard

def postfixOrder (xs : List Element) : Except Fault (List Token) := do
  (← Yard.placeAll 0 .start xs).finish

end DeskCalculator.Expr
