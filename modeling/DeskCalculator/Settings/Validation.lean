import DeskCalculator.Settings.Value
import DeskCalculator.Text.Capital

/-! What settings are admitted: four sections, the fields of each, and the
values of each field. -/
namespace DeskCalculator.Settings

variable {κ σ : Type}

structure Violation (κ : Type := String) (σ : Type := Empty) where
  field : κ
  message : String
  value : Value κ σ

namespace Violation

variable [DecidableEq κ] [Key κ] [Thing κ σ]

def shown (v : Violation κ σ) : String :=
  Key.name v.field ++ ": " ++ v.message ++ " (got: " ++ v.value.shown ++ ")"

def tellable (v : Violation κ σ) : Bool := Key.tellable v.field && v.value.tellable

end Violation

structure Rule (κ : Type := String) (σ : Type := Empty) where
  field : String
  admits : Value κ σ → Bool
  message : String

def isBetween (lo hi : Int) : Value κ σ → Bool
  | .int n => lo ≤ n && n ≤ hi
  | _ => false

def isAtLeast (lo : Int) : Value κ σ → Bool
  | .int n => lo ≤ n
  | _ => false

def isBool : Value κ σ → Bool
  | .bool _ => true
  | _ => false

def isNonempty : Value κ σ → Bool
  | .text s => s != ""
  | _ => false

def isOneOf (names : List String) : Value κ σ → Bool
  | .text s => names.contains s
  | _ => false

def angleModes : List String := ["radians", "degrees"]

def modes : List String := ["basic", "advanced"]

def levels : List String := ["DEBUG", "INFO", "WARNING", "ERROR", "CRITICAL"]

/-- A level may be written in any case. -/
def isLevel : Value κ σ → Bool
  | .text s => levels.contains (Text.capitals s)
  | _ => false

def oneOf (names : List String) : String := "Must be one of " ++ Value.commas names

inductive Section where
  | display | engine | history | logging
  deriving DecidableEq

namespace Section

def ofName? : String → Option Section
  | "display" => some display
  | "engine" => some engine
  | "history" => some history
  | "logging" => some logging
  | _ => none

/-- The section that a key names, if it is a text. -/
def ofKey? [DecidableEq κ] [Key κ] (key : κ) : Option Section := (Key.text? key).bind ofName?

/-- A width of eight holds the scientific form of any number without places. -/
def rules : Section → List (Rule κ σ)
  | display => [
      ⟨"max_length", isAtLeast 8, "Must be an integer of at least 8"⟩,
      ⟨"round_digits", isBetween 0 15, "Must be an integer between 0 and 15"⟩,
      ⟨"exponent_digits", isBetween 0 16, "Must be an integer between 0 and 16"⟩,
      ⟨"error_text", isNonempty, "Must be a non-empty string"⟩]
  | engine => [
      ⟨"angle_mode", isOneOf angleModes, oneOf angleModes⟩,
      ⟨"mode", isOneOf modes, oneOf modes⟩]
  | history => [
      ⟨"enabled", isBool, "Must be a boolean"⟩,
      ⟨"max_entries", isAtLeast 1, "Must be a positive integer"⟩,
      ⟨"db_path", isNonempty, "Must be a non-empty string"⟩]
  | logging => [
      ⟨"level", isLevel, oneOf levels⟩,
      ⟨"format_json", isBool, "Must be a boolean"⟩]

variable [DecidableEq κ] [Key κ]

def broken (fields : Fields κ σ) (r : Rule κ σ) : Option (Violation κ σ) :=
  match fields.lookup (Key.ofText r.field) with
  | some v => if r.admits v then none else some ⟨Key.ofText r.field, r.message, v⟩
  | none => none

/-- Violations of the rules for the fields that are there, in the order of the rules. -/
def validate (s : Section) (fields : Fields κ σ) : List (Violation κ σ) :=
  s.rules.filterMap (broken fields)

/-- The keys that there are rules for. -/
def keys (s : Section) : List κ :=
  let rules : List (Rule κ) := s.rules
  rules.map fun r => Key.ofText r.field

/-- Fields that no rule is for, in their own order. -/
def unknown (s : Section) (name : String) (fields : Fields κ σ) : List (Violation κ σ) :=
  (fields.filter fun (key, _) => !s.keys.contains key).map fun (key, value) =>
    ⟨Key.inside name key, "Unknown configuration field", value⟩

end Section

variable [DecidableEq κ] [Key κ] [Thing κ σ]

def validateEntry : κ × Value κ σ → List (Violation κ σ)
  | (key, value) =>
    match Section.ofKey? key with
    | none => [⟨key, "Unknown configuration section", value⟩]
    | some s =>
      match value.fields? with
      | some fields => s.unknown (Key.name key) fields ++ s.validate fields
      | none => [⟨key, "Must be a mapping", value⟩]

def validate (fields : Fields κ σ) : List (Violation κ σ) := fields.flatMap validateEntry

end DeskCalculator.Settings
