import DeskCalculator.Settings.Profile
import DeskCalculator.Settings.Validation

/-! Fields of the display that break no rule are the settings of a panel. -/
namespace DeskCalculator.Settings
open Display

variable {κ σ : Type}

theorem isAtLeast_int {lo n : Int} {v : Value κ σ} (h : isAtLeast lo v = true)
    (hv : v.int? = some n) : lo ≤ n := by
  cases v <;> simp_all [Value.int?, isAtLeast]

theorem isBetween_int {lo hi n : Int} {v : Value κ σ} (h : isBetween lo hi v = true)
    (hv : v.int? = some n) : lo ≤ n ∧ n ≤ hi := by
  cases v <;> simp_all [Value.int?, isBetween]

theorem isNonempty_text {s : String} {v : Value κ σ} (h : isNonempty v = true)
    (hv : v.text? = some s) : s ≠ "" := by
  cases v <;> simp_all [Value.text?, isNonempty]

variable [DecidableEq κ] [Key κ]

theorem admits_of_validate {s : Section} {fields : Fields κ σ} (h : s.validate fields = [])
    {r : Rule κ σ} (hr : r ∈ s.rules) {v : Value κ σ}
    (hv : fields.lookup (Key.ofText r.field) = some v) :
    r.admits v = true := by
  have none := List.filterMap_eq_nil_iff.1 h r hr
  simp only [Section.broken, hv] at none
  cases admitted : r.admits v
  · simp [admitted] at none
  · rfl

/-- What holds of the default and of all that the rule of a key admits holds of the setting. -/
theorem setting_of_validate {α : Type} {s : Section} {fields : Fields κ σ}
    (h : s.validate fields = []) {r : Rule κ σ} (hr : r ∈ s.rules) {read : Value κ σ → Option α}
    {preset : α} {P : α → Prop} (hpreset : P preset)
    (hread : ∀ v a, r.admits v = true → read v = some a → P a) :
    P (setting fields r.field read preset) := by
  unfold setting
  rcases hv : fields.lookup (Key.ofText r.field) with _ | v
  · exact hpreset
  · rcases ha : read v with _ | a
    · simpa [ha] using hpreset
    · simpa [ha] using hread v a (admits_of_validate h hr hv) ha

theorem params_valid {fields : Fields κ σ} (h : Section.display.validate fields = []) :
    (params fields).Valid := by
  have width : 8 ≤ (params fields).maxLength :=
    setting_of_validate h (.head _) (P := fun n => 8 ≤ n) (by decide)
      fun _ _ => isAtLeast_int
  have places : 0 ≤ (params fields).roundDigits ∧ (params fields).roundDigits ≤ 15 :=
    setting_of_validate h (.tail _ (.head _)) (P := fun n => 0 ≤ n ∧ n ≤ 15) (by decide)
      fun _ _ => isBetween_int
  have mantissa : 0 ≤ (params fields).exponentDigits ∧ (params fields).exponentDigits ≤ 16 :=
    setting_of_validate h (.tail _ (.tail _ (.head _))) (P := fun n => 0 ≤ n ∧ n ≤ 16)
      (by decide) fun _ _ => isBetween_int
  have text : (params fields).errorText ≠ "" :=
    setting_of_validate h (.tail _ (.tail _ (.tail _ (.head _)))) (P := fun s => s ≠ "")
      (by decide) fun _ _ => isNonempty_text
  exact ⟨width, places.1, places.2, mantissa.1, mantissa.2, text⟩

end DeskCalculator.Settings
