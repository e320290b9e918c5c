import DeskCalculator.Display.Format
import DeskCalculator.Expr.Outcome

/-! How an outcome is shown. -/
namespace DeskCalculator.Display
open DeskCalculator.Expr

def render (p : Params) : Outcome → Except Fault String
  | .value x => format p (some x)
  | .failure .. => .ok p.errorText

def Panel.render (p : Panel) : Outcome → String
  | .value x => p.shown (some x)
  | .failure .. => p.params.errorText

end DeskCalculator.Display
