import DeskCalculator.Expr.Tree

/-! Well-formed expressions, as they are written and as they are meant. A group
is operands with operators between them; in place of its last operand a function
may stand without parentheses, and then takes the rest of the group. -/
namespace DeskCalculator.Expr

mutual

inductive Operand where
  | number (n : Numeral)
  | constant (c : Constant)
  | group (inner : Group)
  | call (f : Function) (argument : Group)

inductive Group where
  | last (x : Operand)
  | bare (f : Function) (argument : Group)
  | more (x : Operand) (o : Operator) (rest : Group)

end

mutual

def Operand.tokens : Operand → List Token
  | .number n => [.number n]
  | .constant c => [.constant c]
  | .group g => .opening :: g.tokens ++ [.closing]
  | .call f g => .function f :: .opening :: g.tokens ++ [.closing]

def Group.tokens : Group → List Token
  | .last x => x.tokens
  | .bare f g => .function f :: g.tokens
  | .more x o rest => x.tokens ++ .operator o :: rest.tokens

end

def Operand.isGroup : Operand → Bool
  | .group _ => true
  | _ => false

def Group.opens : Group → Bool
  | .last x | .more x _ _ => x.isGroup
  | .bare _ _ => false

mutual

def Operand.proper : Operand → Bool
  | .number _ | .constant _ => true
  | .group g | .call _ g => g.proper

/-- What a bare function takes does not open with a parenthesis, or the function
would take no more than what is in it. -/
def Group.proper : Group → Bool
  | .last x => x.proper
  | .bare _ g => g.proper && !g.opens
  | .more x _ rest => x.proper && rest.proper

end

/-- Trees and the operators between them. -/
abbrev Chain := Tree × List (Operator × Tree)

namespace Chain

/-- Powers are joined from the right. -/
def powers (x : Tree) : List (Operator × Tree) → Chain
  | [] => (x, [])
  | (o, y) :: rest =>
    let (t, left) := powers y rest
    if o = .power then (.join .power x t, left) else (x, (o, t) :: left)

/-- Products and quotients are joined from the left. -/
def products (x : Tree) : List (Operator × Tree) → Chain
  | [] => (x, [])
  | (o, y) :: rest =>
    if o = .multiply ∨ o = .divide then products (.join o x y) rest
    else
      let (t, left) := products y rest
      (x, (o, t) :: left)

/-- Sums and differences are joined from the left. -/
def sums (x : Tree) : List (Operator × Tree) → Tree
  | [] => x
  | (o, y) :: rest => sums (.join o x y) rest

/-- Powers bind tighter than products, and products tighter than sums. -/
def tree (c : Chain) : Tree :=
  let c := powers c.1 c.2
  let c := products c.1 c.2
  sums c.1 c.2

end Chain

mutual

def Operand.tree : Operand → Tree
  | .number n => .number n
  | .constant c => .constant c
  | .group g => Chain.tree g.chain
  | .call f g => .apply f (Chain.tree g.chain)

def Group.chain : Group → Chain
  | .last x => (x.tree, [])
  | .bare f g => (.apply f (Chain.tree g.chain), [])
  | .more x o rest => (x.tree, (o, rest.chain.1) :: rest.chain.2)

end

/-- What a group means. -/
def Group.tree (g : Group) : Tree := Chain.tree g.chain

end DeskCalculator.Expr
