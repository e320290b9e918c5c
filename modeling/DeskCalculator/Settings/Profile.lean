import DeskCalculator.Calculator.Mode
import DeskCalculator.Display.Params
import DeskCalculator.Expr.Symbol
import DeskCalculator.Settings.Value

/-! Settings as a calculator takes them, and their default values. -/
namespace DeskCalculator.Settings
open Calculator Display DeskCalculator.Expr

structure HistorySettings where
  enabled : Bool := true
  maxEntries : Int := 50
  path : String := "calc_history.db"
  deriving DecidableEq

structure LoggingSettings where
  level : String := "INFO"
  json : Bool := false
  deriving DecidableEq

structure Profile where
  display : Panel := .standard
  angle : AngleMode := .radians
  mode : Mode := .advanced
  history : HistorySettings := {}
  logging : LoggingSettings := {}
  deriving DecidableEq

variable {κ σ : Type}

/-- The settings of a profile by the names of their sections and their own. -/
def Profile.sections (p : Profile) : List (String × List (String × Value κ σ)) :=
  [("display", [
      ("max_length", .int p.display.params.maxLength),
      ("round_digits", .int p.display.params.roundDigits),
      ("exponent_digits", .int p.display.params.exponentDigits),
      ("error_text", .text p.display.params.errorText)]),
    ("engine", [
      ("angle_mode", .text (Vocabulary.spelling p.angle)),
      ("mode", .text (Vocabulary.spelling p.mode))]),
    ("history", [
      ("enabled", .bool p.history.enabled),
      ("max_entries", .int p.history.maxEntries),
      ("db_path", .text p.history.path)]),
    ("logging", [
      ("level", .text p.logging.level),
      ("format_json", .bool p.logging.json)])]

section Keys

variable [DecidableEq κ] [Key κ]

def Profile.fields (p : Profile) : Fields κ σ :=
  keyed (p.sections.map fun (name, fields) => (name, .mapping (keyed fields)))

def defaults : Fields κ σ := Profile.fields {}

/-- The fields of a section, none if it is no mapping. -/
def sectionFields [Thing κ σ] (fields : Fields κ σ) (name : String) : Fields κ σ :=
  ((fields.lookup (Key.ofText name)).bind Value.fields?).getD []

/-- The setting at a key, or its default if there is none of its type. -/
def setting (fields : Fields κ σ) (key : String) (read : Value κ σ → Option α) (preset : α) : α :=
  ((fields.lookup (Key.ofText key)).bind read).getD preset

def angleMode? (v : Value κ σ) : Option AngleMode := v.text?.bind (Vocabulary.find? AngleMode)

def mode? (v : Value κ σ) : Option Mode := v.text?.bind (Vocabulary.find? Mode)

def params (fields : Fields κ σ) : Params :=
  let preset : Params := {}
  { maxLength := setting fields "max_length" Value.int? preset.maxLength
    roundDigits := setting fields "round_digits" Value.int? preset.roundDigits
    exponentDigits := setting fields "exponent_digits" Value.int? preset.exponentDigits
    errorText := setting fields "error_text" Value.text? preset.errorText }

/-- Fields that break no rule have valid settings, which is `params_valid`. -/
def panel (fields : Fields κ σ) : Panel :=
  if h : (params fields).Valid then ⟨params fields, h⟩ else .standard

/-- A section need not have all its fields, as it may first have been set to
something else than a mapping; the missing ones have their defaults. -/
def profile [Thing κ σ] (fields : Fields κ σ) : Profile :=
  let engine := sectionFields fields "engine"
  let history := sectionFields fields "history"
  let logging := sectionFields fields "logging"
  let preset : Profile := {}
  { display := panel (sectionFields fields "display")
    angle := setting engine "angle_mode" angleMode? preset.angle
    mode := setting engine "mode" mode? preset.mode
    history := {
      enabled := setting history "enabled" Value.bool? preset.history.enabled
      maxEntries := setting history "max_entries" Value.int? preset.history.maxEntries
      path := setting history "db_path" Value.text? preset.history.path }
    logging := {
      level := setting logging "level" Value.text? preset.logging.level
      json := setting logging "format_json" Value.bool? preset.logging.json } }

end Keys

end DeskCalculator.Settings
