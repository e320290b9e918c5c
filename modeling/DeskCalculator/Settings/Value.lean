import DeskCalculator.Numeral.Exact
import DeskCalculator.Text.Quoted

/-! Values of settings. A mapping keeps the order in which its keys first came; a later
value of a key takes the earlier one's place. Keys are texts, and there are no values but the
plain ones, unless the settings come from somewhere that has others. -/
namespace DeskCalculator.Settings
open Number

inductive Value (κ : Type := String) (σ : Type := Empty) where
  | null
  | bool (b : Bool)
  | int (n : Int)
  | real (x : Binary64)
  | text (s : String)
  | list (items : List (Value κ σ))
  | mapping (fields : List (κ × Value κ σ))
  | other (thing : σ)

abbrev Fields (κ : Type := String) (σ : Type := Empty) := List (κ × Value κ σ)

/-- What may be the key of a value. Settings themselves have texts for keys. -/
class Key (κ : Type) [DecidableEq κ] where
  ofText : String → κ
  text? : κ → Option String
  text?_eq_some_iff : ∀ key s, text? key = some s ↔ key = ofText s
  /-- The key by itself in a message. -/
  name : κ → String
  /-- The key as a value in a message. -/
  shown : κ → String
  /-- The key of that name in a section, or the key itself if it cannot be told. -/
  inside : String → κ → κ
  tellable : κ → Bool

instance : Key String where
  ofText := id
  text? := some
  text?_eq_some_iff _ _ := Option.some_inj
  name := id
  shown := Text.quoted
  inside sectionName key := sectionName ++ "." ++ key
  tellable _ := true

/-- Values that are none of the plain ones, some of which have fields like a mapping. -/
class Thing (κ σ : Type) where
  fields? : σ → Option (Fields κ σ)
  shown : σ → String
  tellable : σ → Bool

instance (κ : Type) : Thing κ Empty where
  fields? := nofun
  shown := nofun
  tellable := nofun

variable {κ σ : Type}

namespace Fields

def put [DecidableEq κ] (fields : Fields κ σ) (key : κ) (value : Value κ σ) : Fields κ σ :=
  match fields with
  | [] => [(key, value)]
  | (k, v) :: rest => if k = key then (key, value) :: rest else (k, v) :: put rest key value

def ofPairs [DecidableEq κ] (pairs : List (κ × Value κ σ)) : Fields κ σ :=
  pairs.foldl (fun fields (key, value) => put fields key value) []

end Fields

/-- Texts in the place of keys. -/
def keyed [DecidableEq κ] [Key κ] {α : Type} (fields : List (String × α)) : List (κ × α) :=
  fields.map fun (name, value) => (Key.ofText name, value)

/-- Integers have a text up to so many digits. -/
def mostDigits : Nat := 4300

def hasText (n : Int) : Bool := n.natAbs < 10 ^ mostDigits

namespace Value

def text? : Value κ σ → Option String
  | text s => some s
  | _ => none

def int? : Value κ σ → Option Int
  | int n => some n
  | _ => none

def bool? : Value κ σ → Option Bool
  | bool b => some b
  | _ => none

/-- The fields of a mapping. -/
def fields? [Thing κ σ] : Value κ σ → Option (Fields κ σ)
  | mapping fields => some fields
  | other thing => Thing.fields? thing
  | _ => none

def commas : List String → String
  | [] => ""
  | [s] => s
  | s :: rest => s ++ ", " ++ commas rest

def boolText (b : Bool) : String := if b then "True" else "False"

variable [DecidableEq κ] [Key κ] [Thing κ σ]

mutual

/-- The text of a value in messages, of whatever length its integers are. -/
def shown : Value κ σ → String
  | null => "None"
  | bool b => boolText b
  | int n => toString n
  | real x => Numeral.exact x
  | text s => Text.quoted s
  | list items => "[" ++ commas (shownItems items) ++ "]"
  | mapping fields => "\x7b" ++ commas (shownFields fields) ++ "\x7d"
  | other thing => Thing.shown κ thing

def shownItems : List (Value κ σ) → List String
  | [] => []
  | v :: rest => shown v :: shownItems rest

def shownFields : List (κ × Value κ σ) → List String
  | [] => []
  | (k, v) :: rest => (Key.shown k ++ ": " ++ shown v) :: shownFields rest

end

mutual

/-- All integers in the value have a text. -/
def tellable : Value κ σ → Bool
  | int n => hasText n
  | list items => tellableItems items
  | mapping fields => tellableFields fields
  | other thing => Thing.tellable κ thing
  | _ => true

def tellableItems : List (Value κ σ) → Bool
  | [] => true
  | v :: rest => tellable v && tellableItems rest

def tellableFields : List (κ × Value κ σ) → Bool
  | [] => true
  | (k, v) :: rest => Key.tellable k && tellable v && tellableFields rest

end

end Value
end DeskCalculator.Settings
