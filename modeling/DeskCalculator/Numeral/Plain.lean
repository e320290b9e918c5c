import DeskCalculator.Number.Shortest

/-! Plain text of a double: its shortest digits in positional form, with no
exponent, no needless zero and no sign on zero. -/
namespace DeskCalculator.Numeral
open Number

def digits (n : Nat) : List Char := Nat.toDigits 10 n

/-- Zeros in front, up to the given length. -/
def padded (width : Nat) (ds : List Char) : List Char :=
  List.replicate (width - ds.length) '0' ++ ds

/-- The digits with a point before the last ones, at least one before the point. -/
def pointed (places : Nat) (ds : List Char) : List Char :=
  let ds := padded (places + 1) ds
  ds.take (ds.length - places) ++ '.' :: ds.drop (ds.length - places)

def positional (d : Decimal) : List Char :=
  if 0 ≤ d.exponent then digits d.coefficient ++ List.replicate d.exponent.toNat '0'
  else pointed (-d.exponent).toNat (digits d.coefficient)

def sign (negative : Bool) : List Char := if negative then ['-'] else []

def plain : Binary64 → String
  | .nan => "NaN"
  | .infinity s => .ofList (sign s ++ "Infinity".toList)
  | .finite s m => .ofList (sign (s && m.units != 0) ++ positional (shortest s m))

end DeskCalculator.Numeral
