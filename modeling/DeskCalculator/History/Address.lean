import DeskCalculator.Text.Utf8

/-! Addresses of stores. An address is a path, or "file:" and a path with options
after the first question mark; a fragment at the end counts for nothing. In the
second form an escape stands for a byte, so paths are bytes. -/
namespace DeskCalculator.History
open Text

def slash : UInt8 := '/'.toUInt8

/-- The part of a path for the directory it has come to. -/
def here : Bytes := utf8 "."

/-- The part of a path for the directory above. -/
def above : Bytes := utf8 ".."

def pieces (separator : UInt8) : Bytes → List Bytes
  | [] => [[]]
  | b :: rest =>
    if b = separator then [] :: pieces separator rest
    else match pieces separator rest with
      | [] => [[b]]
      | piece :: later => (b :: piece) :: later

/-- What stands before the first separator and what stands after it. -/
def divide (separator : UInt8) (bs : Bytes) : Bytes × Bytes :=
  (bs.takeWhile (· != separator), (bs.dropWhile (· != separator)).drop 1)

/-- A path without its empty parts and its parts for the directory itself. -/
def tidy (bs : Bytes) : Bytes :=
  let parts := (pieces slash bs).filter fun part => part != [] && part != here
  if bs.head? = some slash then slash :: [slash].intercalate parts
  else if parts = [] then here
  else [slash].intercalate parts

def hexDigit? (b : UInt8) : Option UInt8 :=
  if '0'.toUInt8 ≤ b && b ≤ '9'.toUInt8 then some (b - '0'.toUInt8)
  else if 'a'.toUInt8 ≤ b && b ≤ 'f'.toUInt8 then some (b - 'a'.toUInt8 + 10)
  else if 'A'.toUInt8 ≤ b && b ≤ 'F'.toUInt8 then some (b - 'A'.toUInt8 + 10)
  else none

/-- The byte that a percent sign and two hexadecimal digits stand for. -/
def escape? (p a b : UInt8) : Option UInt8 :=
  if p = '%'.toUInt8 then do return 16 * (← hexDigit? a) + (← hexDigit? b) else none

/-- An escaped zero ends the text; a percent sign that starts no escape stands for itself. -/
def unescape : Bytes → Bytes
  | p :: a :: b :: rest =>
    match escape? p a b with
    | none => p :: unescape (a :: b :: rest)
    | some c => if c = 0 then [] else c :: unescape rest
  | short => short

structure Address where
  path : Bytes
  options : List (Bytes × Bytes)
  deriving DecidableEq

namespace Address

/-- Options without a name do not count; one without a value has the empty value. -/
def optionsOf (bs : Bytes) : List (Bytes × Bytes) :=
  let options := (pieces '&'.toUInt8 bs).map fun piece =>
    let (name, value) := divide '='.toUInt8 piece
    (unescape name, unescape value)
  options.filter fun o => o.1 != []

def scheme : Bytes := utf8 "file:"

def ofBytes (bs : Bytes) : Address :=
  if scheme.isPrefixOf bs then
    let (path, options) := divide '?'.toUInt8 (divide '#'.toUInt8 (bs.drop scheme.length)).1
    ⟨unescape path, optionsOf options⟩
  else ⟨bs, []⟩

/-- A text with a zero character is no address. -/
def ofText? (s : String) : Option Address :=
  if s.toList.contains '\x00' then none else some (ofBytes (tidy (utf8 s)))

/-- The first value of an option. -/
def option? (a : Address) (name : String) : Option Bytes := a.options.lookup (utf8 name)

/-- The last value of an option. -/
def lastOption? (a : Address) (name : String) : Option Bytes :=
  a.options.reverse.lookup (utf8 name)

end Address

def digit? (base : Nat) (b : UInt8) : Option Nat := do
  let d ← hexDigit? b
  if d.toNat < base then some d.toNat else none

/-- The number that the digits at the start come to. -/
def leadingNumber (base : Nat) (bs : Bytes) : Nat :=
  (bs.map (digit? base)).takeWhile Option.isSome |>.foldl (fun n d => base * n + d.getD 0) 0

/-- A number after 0x is hexadecimal if any such digit follows. One of more than 31 bits is zero. -/
def numberAt (bs : Bytes) : Nat :=
  let n := match bs with
    | z :: x :: d :: rest =>
      if z = '0'.toUInt8 && (x = 'x'.toUInt8 || x = 'X'.toUInt8) && (hexDigit? d).isSome
      then leadingNumber 16 (d :: rest) else leadingNumber 10 bs
    | _ => leadingNumber 10 bs
  if n < 0x80000000 then n else 0

def lowered (b : UInt8) : UInt8 :=
  if 'A'.toUInt8 ≤ b && b ≤ 'Z'.toUInt8 then b + 32 else b

/-- A switch is on by a word in any case, or by a number whose lowest byte is not zero. -/
def isOn (value : Bytes) : Bool :=
  match value with
  | b :: _ =>
    if (digit? 10 b).isSome then numberAt value % 256 != 0
    else [utf8 "on", utf8 "yes", utf8 "true"].contains (value.map lowered)
  | [] => false

/-- Whether an option is a switch and on. -/
def Address.hasOn (a : Address) (name : String) : Bool := ((a.option? name).map isOn).getD false

end DeskCalculator.History
