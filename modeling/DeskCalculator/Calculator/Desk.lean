import DeskCalculator.Calculator.Folding
import DeskCalculator.Calculator.Memory
import DeskCalculator.Calculator.Typing
import DeskCalculator.History.Store
import DeskCalculator.Settings.Profile

/-! The whole calculator: its panel, its state, and the history it may keep. -/
namespace DeskCalculator.Calculator
open Clock Display DeskCalculator.Expr History

/-- What an operation of the whole calculator may fail with. -/
inductive DeskFault where
  | expression (f : Expr.Fault)
  | history (f : History.Fault)
  | noEntry
  | indexTooWide
  deriving DecidableEq

def DeskFault.message : DeskFault → String
  | expression f => f.message
  | history f => f.message
  | noEntry => "list index out of range"
  | indexTooWide => "cannot fit 'int' into an index-sized integer"

structure Desk where
  panel : Panel
  state : State
  history : Option Store
  now : Instant
  deriving DecidableEq

/-- One input to the calculator; the time of day is one too. -/
inductive Operation where
  | key (name : String)
  | command (c : Command) (argument : Option String)
  | text (symbol : String)
  | element (x : Element)
  | digit (d : String)
  | decimal
  | backspace
  | percent
  | unary (f : Function)
  | constant (c : Constant)
  | operator (o : BasicOperator)
  | equals
  | evaluate
  | clear
  | clearEntry
  | clearExpression
  | pop
  | memoryClear
  | memoryRecall
  | memoryAdd
  | memorySubtract
  | angle (a : AngleMode)
  | mode (m : Mode)
  | toggleAngle
  | history (limit : Option Int)
  | recall (expression result : String)
  | recallIndex (i : Int)
  | clock (now : Instant)
  deriving DecidableEq

inductive Reply where
  | nothing
  | flag (b : Bool)
  | display (text : String)
  | outcome (o : Option Outcome)
  | token (t : Option Token)
  | angle (a : AngleMode)
  | entries (es : List Entry)
  deriving DecidableEq

namespace Desk

/-- A new calculator with the modes of its settings. -/
def start (display : Panel) (angle : AngleMode) (mode : Mode) (history : Option Store)
    (now : Instant) : Desk :=
  ⟨display, { angle, mode }, history, now⟩

def standard (history : Option Store) (now : Instant) : Desk :=
  start .standard .radians .advanced history now

/-- A history is opened only if the settings enable it. -/
def ofProfile (p : Settings.Profile) (now : Instant) (folders : Folders := .scratch) :
    Except History.Fault Desk :=
  if p.history.enabled then do
    return start p.display p.angle p.mode
      (some (← Store.openNew p.history.path p.history.maxEntries folders)) now
  else .ok (start p.display p.angle p.mode none now)

abbrev Result := Except DeskFault Reply × Desk

def put (d : Desk) (s : State) : Desk := { d with state := s }

def done (d : Desk) (s : State) : Result := (.ok .nothing, d.put s)

/-- The state a fault leaves is kept. -/
def settle (d : Desk) : Except Halt State → Result
  | .ok s => d.done s
  | .error h => (.error (.expression h.fault), d.put h.left)

/-- A store that cannot be written to is passed over; a timestamp that it or the
calendar cannot hold is not. -/
def record (d : Desk) (expression result : String) : Except DeskFault Unit × Desk :=
  match d.history with
  | none => (.ok (), d)
  | some store =>
    let (answer, after) := store.record d.now expression result none
    let d := { d with history := some after }
    match answer with
    | .ok _ => (.ok (), d)
    | .error f => (if f.operation.isSome then .ok () else .error (.history f), d)

/-- A calculation is recorded before it is cleared away. -/
def equals (d : Desk) : Result :=
  match d.state.calculation with
  | .error f => (.error (.expression f), d)
  | .ok none => (.ok (.outcome none), d)
  | .ok (some c) =>
    match d.record c.expression (d.panel.render c.outcome) with
    | (.error f, d) => (.error f, d)
    | (.ok (), d) => (.ok (.outcome (some c.outcome)), d.put (d.state.conclude d.panel c.outcome))

def evaluated (d : Desk) : Result :=
  match d.state.currentTokens with
  | .error f => (.error (.expression f), d)
  | .ok ts => (.ok (.outcome (some (d.state.valueOf ts))), d)

def recent (d : Desk) (limit : Option Int) : Except DeskFault (List Entry) :=
  match d.history with
  | none => .ok []
  | some store => match store.recent limit with
    | .ok es => .ok es
    | .error f => .error (.history f)

def restore (d : Desk) (expression result : String) : Result :=
  d.settle (d.state.restore d.panel expression result)

/-- A negative index counts from the end. -/
def entryAt? (es : List Entry) (i : Int) : Option Entry :=
  let i := if i < 0 then i + es.length else i
  if i < 0 then none else es[i.toNat]?

def recallIndex (d : Desk) (i : Int) : Result :=
  match d.recent none with
  | .error f => (.error f, d)
  | .ok es =>
    if !isStorable i then (.error .indexTooWide, d)
    else match entryAt? es i with
    | some e => d.restore e.expression e.result
    | none => (.error .noEntry, d)

def unary (d : Desk) (f : Function) : Result :=
  let s := d.state.unary d.panel f
  (.ok (.display s.display), d.put s)

/-- A command answers nothing. -/
def silent : Result → Result
  | (.ok _, d) => (.ok .nothing, d)
  | r => r

def command (d : Desk) (argument : Option String) : Command → Result
  | .digit => match argument with
    | some a => d.settle (d.state.digit d.panel a)
    | none => (.error (.expression .missingDigit), d)
  | .decimal => d.done d.state.decimal
  | .clear => d.done d.state.clear
  | .clearEntry => d.done d.state.clearEntry
  | .backspace => d.done d.state.backspace
  | .percent => d.done (d.state.percent d.panel)
  | .parenOpen => d.settle (d.state.expressionKey d.panel .opening)
  | .parenClose => d.settle (d.state.expressionKey d.panel .closing)
  | .add => d.settle (d.state.press d.panel .add)
  | .subtract => d.settle (d.state.press d.panel .subtract)
  | .multiply => d.settle (d.state.press d.panel .multiply)
  | .divide => d.settle (d.state.press d.panel .divide)
  | .power => d.settle (d.state.expressionKey d.panel (.operator .power))
  | .equals => silent d.equals
  | .negate => silent (d.unary .neg)
  | .sqrt => silent (d.unary .sqrt)
  | .square => silent (d.unary .square)
  | .reciprocal => silent (d.unary .reciprocal)
  | .sin => d.settle (d.state.expressionKey d.panel (.function .sin))
  | .cos => d.settle (d.state.expressionKey d.panel (.function .cos))
  | .tan => d.settle (d.state.expressionKey d.panel (.function .tan))
  | .ln => d.settle (d.state.expressionKey d.panel (.function .ln))
  | .log => d.settle (d.state.expressionKey d.panel (.function .log))
  | .pi => d.settle (d.state.constant d.panel .pi)
  | .e => d.settle (d.state.constant d.panel .e)
  | .memoryClear => d.done d.state.memoryClear
  | .memoryRecall => d.done (d.state.memoryRecall d.panel)
  | .memoryPlus => d.done d.state.memoryAdd
  | .memoryMinus => d.done d.state.memorySubtract
  | .angleToggle => d.done d.state.toggleAngle

/-- A key answers whether it is bound to a command. -/
def key (d : Desk) (name : String) : Result :=
  match ofKey? name with
  | none => (.ok (.flag false), d)
  | some (c, argument) =>
    match d.command argument c with
    | (.ok _, d) => (.ok (.flag true), d)
    | r => r

def pop (d : Desk) : Result :=
  match d.state.pop with
  | .ok (t, s) => (.ok (.token t), d.put s)
  | .error h => (.error (.expression h.fault), d.put h.left)

def perform (d : Desk) : Operation → Result
  | .key name => d.key name
  | .command c argument => d.command argument c
  | .text symbol => d.settle (d.state.text d.panel symbol)
  | .element x => d.settle (d.state.element d.panel x)
  | .digit a => d.settle (d.state.digit d.panel a)
  | .decimal => d.done d.state.decimal
  | .backspace => d.done d.state.backspace
  | .percent => d.done (d.state.percent d.panel)
  | .unary f => d.unary f
  | .constant c => d.settle (d.state.constant d.panel c)
  | .operator o => d.settle (d.state.press d.panel o)
  | .equals => d.equals
  | .evaluate => d.evaluated
  | .clear => d.done d.state.clear
  | .clearEntry => d.done d.state.clearEntry
  | .clearExpression => d.done d.state.clearExpression
  | .pop => d.pop
  | .memoryClear => d.done d.state.memoryClear
  | .memoryRecall => d.done (d.state.memoryRecall d.panel)
  | .memoryAdd => d.done d.state.memoryAdd
  | .memorySubtract => d.done d.state.memorySubtract
  | .angle a => d.done { d.state with angle := a }
  | .mode m => d.done (d.state.setMode m)
  | .toggleAngle =>
    let s := d.state.toggleAngle
    (.ok (.angle s.angle), d.put s)
  | .history limit => match d.recent limit with
    | .ok es => (.ok (.entries es), d)
    | .error f => (.error f, d)
  | .recall expression result => d.restore expression result
  | .recallIndex i => d.recallIndex i
  | .clock now => (.ok .nothing, { d with now })

/-- The calculator after a sequence of inputs, of which any may fail. -/
def after (d : Desk) (inputs : List Operation) : Desk :=
  inputs.foldl (fun d input => (d.perform input).2) d

end Desk
end DeskCalculator.Calculator
