import DeskCalculator.Expr.Fault
import DeskCalculator.Numeral.Grammar
import DeskCalculator.Text.Blank

/-! Tokens of an expression and their spelling. -/
namespace DeskCalculator.Expr
open Text

inductive Token where
  | number (n : Numeral)
  | constant (c : Constant)
  | operator (o : Operator)
  | function (f : Function)
  | opening
  | closing
  deriving DecidableEq

/-- What may stand where a token is expected: a token, or a text that is none. -/
inductive Element where
  | token (t : Token)
  | stray (text : String)
  deriving DecidableEq

namespace Token

def text : Token → String
  | number n => n.text
  | constant c => Vocabulary.spelling c
  | operator o => Vocabulary.spelling o
  | function f => Vocabulary.spelling f
  | opening => "("
  | closing => ")"

def ofNumeral (s : String) : Except Fault Token :=
  match Numeral.ofText? s with
  | some n => .ok (.number n)
  | none => .error (.notNumeral s)

/-- A text without blanks around it is read as a parenthesis, an operator, a
function, a constant or a numeral; no text is two of these. -/
def ofWord? (s : String) : Option Token :=
  if s = "(" then some .opening
  else if s = ")" then some .closing
  else (Vocabulary.find? Operator s).map .operator
    <|> (Vocabulary.find? Function s).map .function
    <|> (Vocabulary.find? Constant s).map .constant
    <|> (Numeral.ofText? s).map .number

def parse (s : String) : Except Fault Token :=
  match ofWord? (trim s) with
  | some t => .ok t
  | none => .error (.unknownToken (trim s))

def parseAll (s : String) : Except Fault (List Token) := (words s).mapM parse

/-- The line that shows an expression. -/
def line (ts : List Token) : String := spaced (ts.map text)

end Token
end DeskCalculator.Expr
