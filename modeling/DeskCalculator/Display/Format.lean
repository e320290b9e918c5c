import DeskCalculator.Display.Params
import DeskCalculator.Display.Rounding
import DeskCalculator.Numeral.Scientific

/-! What the display shows for a number: its rounded value in plain form if that
fits, else with a shortened mantissa, in plain form if at least that fits, else
in scientific form. -/
namespace DeskCalculator.Display
open Number Numeral

def fits (p : Params) (text : String) : Bool := text.length ≤ p.maxLength

/-- A count of places is checked before the number is looked at. -/
def scientific? (digits : Int) (x : Binary64) : Except Fault Scientific :=
  if digits < 0 then .error .missingPrecision
  else if 2 ^ 63 ≤ digits then .error .precisionTooLong
  else if 2 ^ 31 ≤ digits then .error .precisionTooBig
  else match x with
    | .finite s m => .ok (significant digits.toNat s m)
    | _ => .error .noExponent

def shortened (p : Params) (x : Binary64) : Except Fault String := do
  let s ← scientific? p.exponentDigits x
  let text := plain s.decimal.nearest
  .ok (if fits p text then text else scientific s)

def layout (p : Params) (x : Binary64) : Except Fault String :=
  if fits p (plain x) then .ok (plain x) else shortened p x

def format (p : Params) : Option Binary64 → Except Fault String
  | none => .ok p.errorText
  | some x => if x.isFinite then do layout p (← rounded p.roundDigits x) else .ok p.errorText

/-- The text a panel shows. With its settings `format` has no fault, which is `format_eq_shown`. -/
def Panel.shown (p : Panel) (x : Option Binary64) : String :=
  match format p.params x with
  | .ok text => text
  | .error _ => p.params.errorText

end DeskCalculator.Display
