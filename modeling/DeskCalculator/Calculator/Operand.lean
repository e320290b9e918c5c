import DeskCalculator.Calculator.State

/-! The operand that an immediate operation acts on. -/
namespace DeskCalculator.Calculator
open DeskCalculator.Expr Number

/-- Length of the group that a reversed expression starts with, up to the opening
parenthesis that matches when the given number are to be matched before. -/
def groupLength? (depth : Nat) : List Token → Option Nat
  | [] => none
  | .closing :: rest => (groupLength? (depth + 1) rest).map (· + 1)
  | .opening :: rest =>
    if depth = 1 then some 1 else (groupLength? (depth - 1) rest).map (· + 1)
  | _ :: rest => (groupLength? depth rest).map (· + 1)

def isFunction : Token → Bool
  | .function _ => true
  | _ => false

/-- Where the group at the end of an expression begins. Functions written in
front of the parenthesis belong to it. -/
def groupStart? (ts : List Token) : Option Nat :=
  (groupLength? 0 ts.reverse).map fun n =>
    ts.length - n - ((ts.reverse.drop n).takeWhile isFunction).length

inductive Operand where
  /-- A parenthesised group at the end of the expression, and what comes before it. -/
  | group (before inner : List Token)
  /-- A value in place of the end of the expression, and what comes before it. -/
  | value (before : List Token) (x : Binary64)
  | absent

/-- A number or constant at the end, or a group. -/
def trailing (ts : List Token) : Operand :=
  match ts.getLast? with
  | some (.number n) => .value ts.dropLast n.value
  | some (.constant c) => .value ts.dropLast c.value
  | some .closing =>
    match groupStart? ts with
    | some i => .group (ts.take i) (ts.drop i)
    | none => .absent
  | _ => .absent

/-- The number being typed, else the end of the expression, and without an
expression the display. -/
def State.operand (s : State) : Operand :=
  if s.entry ≠ "" ∨ s.tokens = [] then
    match s.currentValue? with
    | some x => .value s.tokens x
    | none => .absent
  else trailing s.tokens

end DeskCalculator.Calculator
