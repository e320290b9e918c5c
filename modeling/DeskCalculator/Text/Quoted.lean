import DeskCalculator.Text.Printable

/-! Quoted text, as messages show it: single quotes unless the text has a single
and no double quote, with a backslash before the quote, itself and controls. -/
namespace DeskCalculator.Text

/-- At least the given number of hexadecimal digits. -/
def hex (width n : Nat) : List Char :=
  let digits := Nat.toDigits 16 n
  List.replicate (width - digits.length) '0' ++ digits

def escaped (quote c : Char) : List Char :=
  if c = quote ∨ c = '\\' then ['\\', c]
  else if c = '\n' then ['\\', 'n']
  else if c = '\r' then ['\\', 'r']
  else if c = '\t' then ['\\', 't']
  else if isPrintable c then [c]
  else if c.toNat < 0x100 then '\\' :: 'x' :: hex 2 c.toNat
  else if c.toNat < 0x10000 then '\\' :: 'u' :: hex 4 c.toNat
  else '\\' :: 'U' :: hex 8 c.toNat

def quoteFor (cs : List Char) : Char :=
  if cs.contains '\'' && !cs.contains '"' then '"' else '\''

def quoted (s : String) : String :=
  let quote := quoteFor s.toList
  .ofList (quote :: s.toList.flatMap (escaped quote) ++ [quote])

/-- A byte that is no character of seven bits is not printable. -/
def escapedByte (quote : Char) (b : UInt8) : List Char :=
  if b < 0x80 then escaped quote (.ofNat b.toNat) else '\\' :: 'x' :: hex 2 b.toNat

def quotedBytes (bs : List UInt8) : String :=
  let quote := quoteFor (bs.map fun b => .ofNat b.toNat)
  .ofList ('b' :: quote :: bs.flatMap (escapedByte quote) ++ [quote])

end DeskCalculator.Text
