/-! Settings of the display. -/
namespace DeskCalculator.Display

structure Params where
  /-- Width of the display. -/
  maxLength : Int := 16
  /-- Decimal places kept in a result. -/
  roundDigits : Int := 12
  /-- Places of the mantissa in scientific form. -/
  exponentDigits : Int := 10
  /-- Shown in place of a result that is not finite. -/
  errorText : String := "Error"
  deriving DecidableEq

def Params.Valid (p : Params) : Prop :=
  8 ≤ p.maxLength ∧ 0 ≤ p.roundDigits ∧ p.roundDigits ≤ 15 ∧
  0 ≤ p.exponentDigits ∧ p.exponentDigits ≤ 16 ∧ p.errorText ≠ ""

instance (p : Params) : Decidable p.Valid := by unfold Params.Valid; infer_instance

/-- The settings a calculator works with. -/
structure Panel where
  params : Params
  valid : params.Valid
  deriving DecidableEq

def Panel.standard : Panel := ⟨{}, by decide⟩

end DeskCalculator.Display
