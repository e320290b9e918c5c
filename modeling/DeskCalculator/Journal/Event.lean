import DeskCalculator.Display.Render
import DeskCalculator.Settings.Value

/-! Journal entries about evaluations: what is said about one, and how loudly. -/
namespace DeskCalculator.Journal
open Display DeskCalculator.Expr Settings

/-- A call on a journal: fields for the calls that follow, or an event. -/
inductive Call where
  | bind (fields : Fields)
  | debug (event : String) (fields : Fields)
  | warning (event : String) (fields : Fields)

def raw : Option Number.Binary64 → Value
  | some x => .real x
  | none => .null

def report : Outcome → Call
  | .value x => .debug "Expression evaluated" [("value", .real x)]
  | .failure kind _ x => .warning "Expression evaluation failed"
      [("error_kind", .text (Vocabulary.spelling kind)), ("raw_value", raw x)]

/-- The display text is that of a standard panel; an empty context is left out. -/
def evaluation (expression : String) (outcome : Outcome) (context : Fields) : List Call :=
  .bind [("expression", .text expression), ("display", .text (Panel.standard.render outcome)),
      ("outcome", .text (if outcome.ok then "OK" else "ERROR"))] ::
    (if context.isEmpty then [] else [.bind [("context", .mapping context)]]) ++
    [report outcome]

end DeskCalculator.Journal
