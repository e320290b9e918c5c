import DeskCalculator.Text.Capital
import DeskCalculator.Text.Quoted

/-! The chain of processors that an event passes, and the level it must reach. -/
namespace DeskCalculator.Journal
open Text

structure Options where
  json : Bool := false
  timestamp : Bool := true
  caller : Bool := false
  extra : List String := []

def shared : List String :=
  ["filter_by_level", "add_logger_name", "add_log_level", "PositionalArgumentsFormatter",
    "StackInfoRenderer", "ExceptionRenderer", "UnicodeDecoder"]

/-- Extra processors come last but for the renderer. -/
def chain (o : Options) : List String :=
  shared ++ (if o.timestamp then ["TimeStamper"] else []) ++
    (if o.caller then ["CallsiteParameterAdder"] else []) ++ o.extra ++
    [if o.json then "JSONRenderer" else "ConsoleRenderer"]

def levelNumbers : List (String × Nat) :=
  [("CRITICAL", 50), ("FATAL", 50), ("ERROR", 40), ("WARNING", 30), ("WARN", 30), ("INFO", 20),
    ("DEBUG", 10), ("NOTSET", 0)]

def basicFormat : String := "%(levelname)s:%(name)s:%(message)s"

/-- The table of message styles as it is shown. -/
def styleTable : String :=
  "\x7b'%': (<class 'logging.PercentStyle'>, '%(levelname)s:%(name)s:%(message)s'), " ++
  "'\x7b': (<class 'logging.StrFormatStyle'>, '\x7blevelname\x7d:\x7bname\x7d:\x7bmessage\x7d'), " ++
  "'$': (<class 'logging.StringTemplateStyle'>, " ++
  "'$\x7blevelname\x7d:$\x7bname\x7d:$\x7bmessage\x7d')\x7d"

inductive Fault where
  | noAttribute (name : String)
  | unknownLevel (name : String)
  | notLevel (shown : String)
  deriving DecidableEq

def Fault.message : Fault → String
  | noAttribute name => "module 'logging' has no attribute '" ++ name ++ "'"
  | unknownLevel name => "Unknown level: " ++ quoted name
  | notLevel shown => "Level not an integer or a valid string: " ++ shown

/-- Level names in any case. Two more names are known but name no level: that of
the basic format, a text, and that of the table of styles. -/
def level (name : String) : Except Fault Nat :=
  match levelNumbers.lookup (capitals name) with
  | some n => .ok n
  | none => .error
      (if capitals name = "BASIC_FORMAT" then .unknownLevel basicFormat
        else if capitals name = "_STYLES" then .notLevel styleTable
        else .noAttribute (capitals name))

structure Configured where
  level : Nat
  handlers : Nat
  chain : List String
  cached : Bool

def configure (name : String) (o : Options) : Except Fault Configured := do
  return ⟨← level name, 1, chain o, true⟩

end DeskCalculator.Journal
