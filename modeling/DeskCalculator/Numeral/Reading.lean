import DeskCalculator.Number.Decimal
import DeskCalculator.Numeral.Grammar
import DeskCalculator.Text.Blank

/-! Reading a double from free text: blanks around it, a sign, digits grouped by
underscores, a point, an exponent, or the name of an infinity or of nan. -/
namespace DeskCalculator.Numeral
open Number Text

/-- Text beyond ASCII is first brought into it: blanks become spaces and digits
of any script become ours, and no other character from U+007F on has a place. -/
def toAscii? (c : Char) : Option Char :=
  if c.toNat < 0x7f then some c
  else if isBlank c then some ' '
  else (digit? c).map fun d => Char.ofNat ('0'.toNat + d)

def ascii? (cs : List Char) : Option (List Char) :=
  if cs.all (·.toNat < 0x80) then some cs else cs.mapM toAscii?

/-- Of the ASCII blanks only these six may stand around a number. -/
def isMargin (c : Char) : Bool := (0x09 ≤ c.toNat && c.toNat ≤ 0x0d) || c == ' '

/-- An underscore is dropped between two digits and refused elsewhere. -/
def ungroup? (afterDigit : Bool) : List Char → Option (List Char)
  | [] => some []
  | '_' :: c :: rest =>
    if afterDigit && c.isDigit then (ungroup? true rest).map (c :: ·) else none
  | c :: rest => if c = '_' then none else (ungroup? c.isDigit rest).map (c :: ·)

def natOf (ds : List Char) : Nat := Nat.ofDigitChars 10 ds 0

def exponent? : List Char → Option Int
  | [] => some 0
  | c :: rest =>
    if c = 'e' ∨ c = 'E' then
      let (negative, ds) := match rest with
        | '-' :: ds => (true, ds)
        | '+' :: ds => (false, ds)
        | ds => (false, ds)
      if ds.isEmpty || !ds.all Char.isDigit then none
      else some (if negative then -(natOf ds : Int) else natOf ds)
    else none

/-- Digits with an optional point and exponent, as the decimal they stand for. -/
def decimal? (negative : Bool) (cs : List Char) : Option Decimal :=
  let whole := cs.takeWhile Char.isDigit
  let (fraction, rest) := match cs.dropWhile Char.isDigit with
    | '.' :: rest => (rest.takeWhile Char.isDigit, rest.dropWhile Char.isDigit)
    | rest => ([], rest)
  if whole.isEmpty && fraction.isEmpty then none
  else (exponent? rest).map fun e => ⟨negative, natOf (whole ++ fraction), e - fraction.length⟩

def unsigned? (negative : Bool) (cs : List Char) : Option Binary64 :=
  match String.ofList (cs.map Char.toLower) with
  | "inf" | "infinity" => some (.infinity negative)
  | "nan" => some .nan
  | _ => (decimal? negative cs).map Decimal.nearest

def signed? : List Char → Option Binary64
  | '-' :: cs => unsigned? true cs
  | '+' :: cs => unsigned? false cs
  | cs => unsigned? false cs

def read? (s : String) : Option Binary64 := do
  let cs ← ascii? s.toList
  let cs ← ungroup? false cs
  signed? (trimWith isMargin cs)

/-- Free text takes in every numeral, so nan stands for no numeral here. -/
def value (n : Numeral) : Binary64 := (read? n.text).getD .nan

end DeskCalculator.Numeral
