import DeskCalculator.Text.Digit

/-! Numerals, the number texts of an expression: an optional minus, digits with
at most one point among or around them, an optional exponent. Digits may come
from any script. -/
namespace DeskCalculator.Numeral
open Text

def dropSign : List Char → List Char
  | '+' :: rest | '-' :: rest => rest
  | cs => cs

def isDigits (cs : List Char) : Bool := !cs.isEmpty && cs.all isDigit

/-- Nothing, or e or E, a sign or none, and digits. -/
def isExponent : List Char → Bool
  | [] => true
  | c :: rest => (c == 'e' || c == 'E') && isDigits (dropSign rest)

/-- Digits with an optional point, of which at least one digit; then an exponent. -/
def isUnsigned (cs : List Char) : Bool :=
  let whole := cs.takeWhile isDigit
  match cs.dropWhile isDigit with
  | '.' :: rest =>
    (!whole.isEmpty || !(rest.takeWhile isDigit).isEmpty) && isExponent (rest.dropWhile isDigit)
  | rest => !whole.isEmpty && isExponent rest

def accepts : List Char → Bool
  | '-' :: rest => isUnsigned rest
  | cs => isUnsigned cs

end DeskCalculator.Numeral

namespace DeskCalculator

/-- A numeral is kept as it was entered. -/
structure Numeral where
  text : String
  accepted : Numeral.accepts text.toList = true
  deriving DecidableEq

def Numeral.ofText? (s : String) : Option Numeral :=
  if h : accepts s.toList = true then some ⟨s, h⟩ else none

end DeskCalculator
