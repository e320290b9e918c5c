import DeskCalculator.Text.Quoted

/-! UTF-8: the bytes of a text, and the first flaw of bytes that are no text. -/
namespace DeskCalculator.Text

abbrev Bytes := List UInt8

def utf8 (s : String) : Bytes := s.toList.flatMap String.utf8EncodeChar

inductive FlawKind where
  | start
  | continuation
  | ended
  deriving DecidableEq

def FlawKind.reason : FlawKind → String
  | start => "invalid start byte"
  | continuation => "invalid continuation byte"
  | ended => "unexpected end of data"

/-- Bytes that start at a position where a character should, and are none. -/
structure Flaw where
  position : Nat
  bytes : Bytes
  kind : FlawKind
  deriving DecidableEq

def Flaw.message (f : Flaw) : String :=
  let what := match f.bytes with
    | [b] => "byte 0x" ++ .ofList (hex 2 b.toNat) ++ " in position " ++ toString f.position
    | bs => "bytes in position " ++ toString f.position ++ "-" ++
        toString (f.position + bs.length - 1)
  "'utf-8' codec can't decode " ++ what ++ ": " ++ f.kind.reason

/-- How many bytes follow a first one above 0x7f, and the bounds of the next. They rule
out forms that are too long, surrogates, and what comes after the last character. -/
def lead? (b : UInt8) : Option (Nat × UInt8 × UInt8) :=
  if b < 0xc2 then none
  else if b < 0xe0 then some (1, 0x80, 0xbf)
  else if b = 0xe0 then some (2, 0xa0, 0xbf)
  else if b = 0xed then some (2, 0x80, 0x9f)
  else if b < 0xf0 then some (2, 0x80, 0xbf)
  else if b = 0xf0 then some (3, 0x90, 0xbf)
  else if b < 0xf4 then some (3, 0x80, 0xbf)
  else if b = 0xf4 then some (3, 0x80, 0x8f)
  else none

/-- The bytes of an unfinished character, if as many as should follow do not. -/
def unfinished? (seen : Bytes) : Nat → UInt8 → UInt8 → Bytes → Option (Bytes × FlawKind)
  | 0, _, _, _ => none
  | _ + 1, _, _, [] => some (seen, .ended)
  | n + 1, lo, hi, b :: rest =>
    if lo ≤ b && b ≤ hi then unfinished? (seen ++ [b]) n 0x80 0xbf rest
    else some (seen, .continuation)

/-- The first flaw, with a count of bytes to pass over that belong to a character. -/
def flawFrom (position : Nat) : Nat → Bytes → Option Flaw
  | _, [] => none
  | passed + 1, _ :: rest => flawFrom (position + 1) passed rest
  | 0, b :: rest =>
    if b < 0x80 then flawFrom (position + 1) 0 rest
    else match lead? b with
      | none => some ⟨position, [b], .start⟩
      | some (n, lo, hi) =>
        match unfinished? [b] n lo hi rest with
        | some (bytes, kind) => some ⟨position, bytes, kind⟩
        | none => flawFrom (position + 1) n rest

def decode (bs : Bytes) : Except Flaw String :=
  match flawFrom 0 0 bs with
  | some flaw => .error flaw
  | none => .ok ((String.fromUTF8? ⟨bs.toArray⟩).getD "")

end DeskCalculator.Text
