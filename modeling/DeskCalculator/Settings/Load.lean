import DeskCalculator.Settings.Merge
import DeskCalculator.Settings.Profile
import DeskCalculator.Settings.Validation

/-! Loading of settings: overrides before the settings file before the defaults. -/
namespace DeskCalculator.Settings

def fileName : String := "calc.yaml"

inductive Fault (κ : Type := String) (σ : Type := Empty) where
  | noMapping (directory : String)
  | invalid (violations : List (Violation κ σ))

variable {κ σ : Type} [DecidableEq κ] [Key κ] [Thing κ σ]

namespace Fault

def semicolons : List String → String
  | [] => ""
  | [s] => s
  | s :: rest => s ++ "; " ++ semicolons rest

def message : Fault κ σ → String
  | noMapping directory => directory ++ "/" ++ fileName ++ " must contain a mapping"
  | invalid vs => "Invalid configuration: " ++ semicolons (vs.map Violation.shown)

/-- The field a fault names: the file itself, or the first that breaks a rule. -/
def field : Fault κ σ → Option κ
  | noMapping _ => some (Key.ofText fileName)
  | invalid vs => vs.head?.map Violation.field

def violations : Fault κ σ → List (Violation κ σ)
  | noMapping _ => []
  | invalid vs => vs

def tellable (f : Fault κ σ) : Bool := f.violations.all Violation.tellable

end Fault

/-- A section is a mapping of its own once it is read, as there is one to merge it with. -/
def opened (key : κ) (value : Value κ σ) : Value κ σ :=
  match Section.ofKey? key, value.fields? with
  | some _, some fields => .mapping fields
  | _, _ => value

def openSections (fields : Fields κ σ) : Fields κ σ :=
  fields.map fun (key, value) => (key, opened key value)

/-- The fields of a settings file; a missing or empty one has none. -/
def fileFields (directory : String) : Option (Value κ σ) → Except (Fault κ σ) (Fields κ σ)
  | none | some .null => .ok []
  | some value =>
    match value.fields? with
    | some fields => .ok (openSections fields)
    | none => .error (.noMapping directory)

def merged (directory : String) (file : Option (Value κ σ)) (overrides : Fields κ σ) :
    Except (Fault κ σ) (Fields κ σ) := do
  return merge (merge defaults (← fileFields directory file)) overrides

/-- Only fields that break no rule make a profile. -/
def load (directory : String) (file : Option (Value κ σ)) (overrides : Fields κ σ) :
    Except (Fault κ σ) Profile := do
  let fields ← merged directory file overrides
  match validate fields with
  | [] => .ok (profile fields)
  | vs => .error (.invalid vs)

/-- What is told of settings that are not loaded: the fault, or that it has no text. -/
inductive Refusal (κ : Type := String) (σ : Type := Empty) where
  | fault (f : Fault κ σ)
  | overlong

def Refusal.message : Refusal κ σ → String
  | fault f => f.message
  | overlong => "Exceeds the limit (" ++ toString mostDigits ++ " digits) for integer string " ++
      "conversion; use sys.set_int_max_str_digits() to increase the limit"

def Fault.refusal (f : Fault κ σ) : Refusal κ σ := if f.tellable then .fault f else .overlong

/-- Settings that are not loaded are refused with a message, which shows all that is wrong. -/
def loadOrRefuse (directory : String) (file : Option (Value κ σ)) (overrides : Fields κ σ) :
    Except (Refusal κ σ) Profile :=
  (load directory file overrides).mapError Fault.refusal

end DeskCalculator.Settings
