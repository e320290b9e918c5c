import DeskCalculator.Vocabulary

/-! Commands of the keypad, and the keys of a keyboard that give them. -/
namespace DeskCalculator.Calculator

inductive Command where
  | digit | decimal | clear | clearEntry | backspace | percent | parenOpen | parenClose
  | add | subtract | multiply | divide | power | equals
  | negate | sqrt | square | reciprocal | sin | cos | tan | ln | log | pi | e
  | memoryClear | memoryRecall | memoryPlus | memoryMinus | angleToggle
  deriving DecidableEq

instance : Vocabulary Command where
  noun := "Command"
  members := [.digit, .decimal, .clear, .clearEntry, .backspace, .percent, .parenOpen,
    .parenClose, .add, .subtract, .multiply, .divide, .power, .equals, .negate, .sqrt, .square,
    .reciprocal, .sin, .cos, .tan, .ln, .log, .pi, .e, .memoryClear, .memoryRecall,
    .memoryPlus, .memoryMinus, .angleToggle]
  spelling
    | .digit => "digit" | .decimal => "decimal" | .clear => "clear"
    | .clearEntry => "clear-entry" | .backspace => "backspace" | .percent => "percent"
    | .parenOpen => "paren-open" | .parenClose => "paren-close"
    | .add => "add" | .subtract => "subtract" | .multiply => "multiply" | .divide => "divide"
    | .power => "power" | .equals => "equals" | .negate => "negate" | .sqrt => "sqrt"
    | .square => "square" | .reciprocal => "reciprocal" | .sin => "sin" | .cos => "cos"
    | .tan => "tan" | .ln => "ln" | .log => "log" | .pi => "pi" | .e => "e"
    | .memoryClear => "mem-clear" | .memoryRecall => "mem-recall"
    | .memoryPlus => "mem-plus" | .memoryMinus => "mem-minus" | .angleToggle => "deg-toggle"

def bindings : List (String × Command) :=
  [(".", .decimal), ("+", .add), ("-", .subtract), ("*", .multiply), ("x", .multiply),
    ("X", .multiply), ("/", .divide), ("Enter", .equals), ("=", .equals),
    ("Backspace", .backspace), ("Escape", .clear), ("%", .percent)]

/-- One of the ten digits of the keypad. -/
def isKeypadDigit (s : String) : Bool :=
  match s.toList with
  | [c] => c.isDigit
  | _ => false

/-- The command of a key; a digit key is also its argument. -/
def ofKey? (key : String) : Option (Command × Option String) :=
  if isKeypadDigit key then some (.digit, some key)
  else (bindings.lookup key).map fun c => (c, none)

end DeskCalculator.Calculator
