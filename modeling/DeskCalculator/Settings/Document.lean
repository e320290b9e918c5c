import DeskCalculator.Clock.Reading
import DeskCalculator.Settings.Value
import Mathlib.Data.List.Basic

/-! Values of a document that settings may be read from. Besides the plain values it has
bytes and dates, sets, lists of pairs, and mappings with any scalars for keys. Its collections
are nodes of a graph, as one may stand in several places, and also inside itself. -/
namespace DeskCalculator.Settings
open Clock Number Value

/-- Scalars that are no plain values. -/
inductive Datum where
  | bytes (bs : List UInt8)
  | date (d : Civil)
  | moment (r : Reading)
  deriving DecidableEq

/-- What may be a key in a document. -/
inductive Scalar where
  | null
  | bool (b : Bool)
  | int (n : Int)
  | real (x : Binary64)
  | text (s : String)
  | datum (d : Datum)
  deriving DecidableEq

/-- What stands in a collection: a scalar, or a collection in turn. -/
inductive Item (size : Nat) where
  | scalar (s : Scalar)
  | node (i : Fin size)

/-- A collection. No key of a mapping comes twice. -/
inductive Node (size : Nat) where
  | list (items : List (Item size))
  | pairs (entries : List (Item size × Item size))
  | set (members : List Scalar)
  | mapping (fields : List (Scalar × Item size)) (distinct : (fields.map Prod.fst).Nodup)

abbrev Graph (size : Nat) := Fin size → Node size

/-- Values of a document that are no plain ones: a collection is a node of its graph. -/
inductive Object where
  | datum (d : Datum)
  | node {size : Nat} (g : Graph size) (i : Fin size)

namespace Datum

def zone (offset : Int) : String :=
  if offset = 0 then "datetime.timezone.utc" else "datetime.timezone(" ++ shownSpan offset ++ ")"

/-- An offset in hours and minutes, and in seconds if need be. -/
def offsetText (offset : Int) : String :=
  let n := offset.natAbs / 1000000
  let fraction := offset.natAbs % 1000000
  (if offset < 0 then "-" else "+") ++ padded 2 (n / 3600) ++ ":" ++ padded 2 (n / 60 % 60) ++
    (if n % 60 = 0 ∧ fraction = 0 then "" else ":" ++ padded 2 (n % 60)) ++
    (if fraction = 0 then "" else "." ++ padded 6 fraction)

/-- Seconds and microseconds are left out from the end as long as they are zero. -/
def times (r : Reading) : List Nat :=
  if r.microsecond ≠ 0 then [r.hour, r.minute, r.second, r.microsecond]
  else if r.second ≠ 0 then [r.hour, r.minute, r.second]
  else [r.hour, r.minute]

def shown : Datum → String
  | bytes bs => Text.quotedBytes bs
  | date d => "datetime.date(" ++ commas [toString d.year, toString d.month, toString d.day] ++ ")"
  | moment r =>
    let parts := [toString r.date.year, toString r.date.month, toString r.date.day] ++
      (times r).map toString ++ (r.offset.map ("tzinfo=" ++ zone ·)).toList
    "datetime.datetime(" ++ commas parts ++ ")"

def name : Datum → String
  | bytes bs => Text.quotedBytes bs
  | date d => d.text
  | moment r => r.date.text ++ " " ++ timeText r.hour r.minute r.second r.microsecond ++
      (r.offset.map offsetText).getD ""

end Datum

namespace Scalar

def shown : Scalar → String
  | null => "None"
  | bool b => boolText b
  | int n => toString n
  | real x => Numeral.exact x
  | text s => Text.quoted s
  | datum d => d.shown

def name : Scalar → String
  | text s => s
  | datum d => d.name
  | s => s.shown

def tellable : Scalar → Bool
  | int n => hasText n
  | _ => true

def text? : Scalar → Option String
  | text s => some s
  | _ => none

def value : Scalar → Value Scalar Object
  | null => .null
  | bool b => .bool b
  | int n => .int n
  | real x => .real x
  | text s => .text s
  | datum d => .other (.datum d)

end Scalar

instance : Key Scalar where
  ofText := .text
  text? := Scalar.text?
  text?_eq_some_iff key s := by cases key <;> simp [Scalar.text?]
  name := Scalar.name
  shown := Scalar.shown
  inside sectionName key := if key.tellable then .text (sectionName ++ "." ++ key.name) else key
  tellable := Scalar.tellable

def braces (parts : List String) : String := "\x7b" ++ commas parts ++ "\x7d"

def brackets (parts : List String) : String := "[" ++ commas parts ++ "]"

namespace Node

variable {size : Nat}

/-- The text of a collection, of which the items have theirs. -/
def shown (item : Item size → String) : Node size → String
  | list items => brackets (items.map item)
  | pairs entries => brackets (entries.map fun (a, b) => "(" ++ item a ++ ", " ++ item b ++ ")")
  | set [] => "set()"
  | set members => braces (members.map Scalar.shown)
  | mapping fields _ => braces (fields.map fun (key, x) => key.shown ++ ": " ++ item x)

/-- What stands for a collection inside itself. -/
def elided : Node size → String
  | mapping .. => "\x7b...\x7d"
  | set _ => "set(...)"
  | list _ | pairs _ => "[...]"

def tellable (item : Item size → Bool) : Node size → Bool
  | list items => items.all item
  | pairs entries => entries.all fun (a, b) => item a && item b
  | set members => members.all Scalar.tellable
  | mapping fields _ => fields.all fun (key, x) => key.tellable && item x

end Node

namespace Graph

variable {size : Nat} (g : Graph size)

/-- The text of an item, inside nodes of which those left are not yet open. -/
def shown (left : List (Fin size)) : Item size → String
  | .scalar s => s.shown
  | .node i =>
    if _ : i ∈ left then (g i).shown (shown (left.erase i))
    else (g i).elided
termination_by left.length
decreasing_by
  have shorter := List.length_erase_add_one ‹i ∈ left›
  omega

def tellable (left : List (Fin size)) : Item size → Bool
  | .scalar s => s.tellable
  | .node i =>
    if _ : i ∈ left then (g i).tellable (tellable (left.erase i)) else true
termination_by left.length
decreasing_by
  have shorter := List.length_erase_add_one ‹i ∈ left›
  omega

def value : Item size → Value Scalar Object
  | .scalar s => s.value
  | .node i => .other (.node g i)

def fields? (i : Fin size) : Option (Fields Scalar Object) :=
  match g i with
  | .mapping fields _ => some (fields.map fun (key, x) => (key, g.value x))
  | _ => none

end Graph

instance : Thing Scalar Object where
  fields?
    | .node g i => g.fields? i
    | .datum _ => none
  shown
    | .node g i => g.shown (List.finRange _) (.node i)
    | .datum d => d.shown
  tellable
    | .node g i => g.tellable (List.finRange _) (.node i)
    | .datum _ => true

end DeskCalculator.Settings
