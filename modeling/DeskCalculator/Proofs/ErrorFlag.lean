import DeskCalculator.Proofs.Coherent

/-!
# When the flag of an error is what the display says

An error on the display makes the next input start from scratch, and it is a flag that
says so. `agrees_iff_unsevered`: the flag and the display come apart where an operation
puts a number in the place of the error, or the error in the place of a number, without
the flag. While they agree nothing is lost once the error has left the display.
-/

namespace DeskCalculator.Display
open Number Numeral

theorem zero_ne_error : "0" ≠ Panel.standard.params.errorText := by decide

/-- No text of a number is the text for errors. -/
theorem ne_error_of_legible {text : String} (h : Legible text) :
    text ≠ Panel.standard.params.errorText := by
  rintro rfl
  rcases h with accepted | named
  · exact absurd accepted (by decide)
  · exact absurd named (by decide)

theorem ne_error_of_entered {lost : Prop} {text : String} (h : Entered lost text) :
    text ≠ Panel.standard.params.errorText := by
  rintro rfl
  rcases h.accepts_or with accepted | ⟨-, named⟩
  · exact absurd accepted (by decide)
  · exact absurd named (by decide)

/-- The standard panel shows an error just for what is not finite. -/
theorem shown_eq_error_iff (x : Binary64) :
    Panel.standard.shown (some x) = Panel.standard.params.errorText ↔ x.isFinite = false := by
  constructor
  · intro error
    cases finite : x.isFinite with
    | false => rfl
    | true => exact absurd error (ne_error_of_legible (legible_shown .standard finite))
  · exact shown_of_not_finite .standard

end DeskCalculator.Display

namespace DeskCalculator.Calculator
open Clock Display DeskCalculator.Expr History Number Numeral

namespace State

/-- The flag of an error is what the display says. -/
def Agrees (p : Panel) (s : State) : Prop := s.errorShown = true ↔ s.display = p.params.errorText

instance (p : Panel) (s : State) : Decidable (s.Agrees p) := inferInstanceAs (Decidable (_ ↔ _))

/-- An operation changes what the display says and leaves the flag as it was. -/
def Severs (s : State) : Effect → Prop
  | .clearEntry => s.errorShown = true
  | .backspace => s.errorShown = true ∧ (s.entry ≠ "" ∨ s.tokens ≠ [])
  | .percent =>
    match s.operand with
    | .group _ inner => s.errorShown = true ∧ (s.valueOf (percentage inner)).ok = true
    | .value _ x => s.errorShown = x.isFinite
    | .absent => False
  | .unary f =>
    match s.operand with
    | .group _ inner => s.errorShown = true ∧ (s.valueOf (applied f inner)).ok = true
    | .value _ x => s.errorShown = true ∧ (f.apply s.angle x).isFinite = true
    | .absent => False
  | _ => False

variable {s s' : State}

theorem Agrees.of_same {p : Panel} (h : s.Agrees p) (display : s'.display = s.display)
    (flag : s'.errorShown = s.errorShown) : s'.Agrees p := by
  rw [Agrees, display, flag]
  exact h

theorem agrees_iff_calm {p : Panel} (other : s.display ≠ p.params.errorText) :
    s.Agrees p ↔ s.errorShown = false := by
  simp [Agrees, other]

theorem agrees_iff_shown {x : Binary64} (shown : s.display = Panel.standard.shown (some x)) :
    s.Agrees .standard ↔ s.errorShown = !x.isFinite := by
  rw [Agrees, shown, shown_eq_error_iff]
  cases s.errorShown <;> cases x.isFinite <;> decide

theorem agrees_showError (p : Panel) (s : State) : (s.showError p).Agrees p :=
  iff_of_true rfl rfl

theorem agrees_clear (s : State) : s.clear.Agrees .standard :=
  (agrees_iff_calm zero_ne_error).mpr rfl

theorem Agrees.freshen (h : s.Agrees .standard) : s.freshen.Agrees .standard :=
  freshen_kept (agrees_clear s) h

/-- The display shows what is being typed. -/
theorem Coherent.agrees_typed {lost : Prop} {text : String}
    (h : (s.freshen.typed text).Coherent lost) : (s.freshen.typed text).Agrees .standard := by
  rw [agrees_iff_calm]
  · exact s.freshen_errorShown
  · rcases h.entry with empty | entered
    · have shown : (s.freshen.typed text).display = "" := empty
      rw [shown]
      decide
    · exact ne_error_of_entered entered

theorem Agrees.digit {lost : Prop} (h : s.Agrees .standard) (coherent : s.Coherent lost)
    (d : String) : (left (s.digit .standard d)).Agrees .standard := by
  have typed := coherent.digit .standard d
  rcases s.digit_cases .standard d with same | fresh | ⟨c, text, -, -, same, -⟩
  · rw [same]
    exact h
  · rw [fresh]
    exact h.freshen
  · rw [same] at typed ⊢
    exact typed.agrees_typed

theorem Coherent.agrees_decimal {lost : Prop} (h : s.Coherent lost) :
    s.decimal.Agrees .standard := by
  have typed := h.decimal
  obtain ⟨text, same, -⟩ := s.decimal_cases
  rw [same] at typed ⊢
  exact typed.agrees_typed

theorem Agrees.backspace_iff {lost : Prop} (h : s.Agrees .standard) (coherent : s.Coherent lost) :
    s.backspace.Agrees .standard ↔ ¬ s.Severs .backspace := by
  rcases s.backspace_cases with ⟨filled, back⟩ | ⟨-, some, back⟩ | ⟨empty, none, back⟩
  · rw [back, agrees_iff_calm]
    · simp [Severs, filled]
    · dsimp only
      split
      · decide
      · rename_i rest
        have entered := entered_shortened (coherent.entry.resolve_left filled)
        exact ne_error_of_entered (entered.resolve_left rest)
  · rw [back, agrees_iff_calm zero_ne_error]
    simp [Severs, some]
  · rw [back]
    exact iff_of_true h (by simp [Severs, empty, none])

theorem wrap_agrees_iff (s : State) (before wrapped : List Token) :
    (s.wrap .standard before wrapped).Agrees .standard ↔
      ¬ (s.errorShown = true ∧ (s.valueOf wrapped).ok = true) := by
  rcases s.wrap_cases .standard before wrapped with ⟨x, finite, ok, same⟩ | ⟨failed, same⟩
  · rw [same, agrees_iff_shown rfl]
    simp [finite, ok]
  · rw [same]
    exact iff_of_true (agrees_showError _ s) (by simp [failed])

theorem Agrees.percent_iff (h : s.Agrees .standard) :
    (s.percent .standard).Agrees .standard ↔ ¬ s.Severs .percent := by
  rcases s.percent_cases .standard with
    ⟨before, inner, operand, same⟩ | ⟨before, x, operand, same⟩ | ⟨operand, same⟩
  · rw [same]
    simp only [Severs, operand]
    exact s.wrap_agrees_iff before _
  · rw [same]
    simp only [Severs, operand]
    rw [agrees_iff_shown rfl, x.isFinite_div_hundred]
    exact Bool.eq_not
  · rw [same]
    exact iff_of_true h (by simp [Severs, operand])

theorem Agrees.unary_iff (h : s.Agrees .standard) (f : Function) :
    (s.unary .standard f).Agrees .standard ↔ ¬ s.Severs (.unary f) := by
  rcases s.unary_cases .standard f with ⟨before, inner, operand, same⟩ |
    ⟨before, x, operand, ⟨error, same⟩ | ⟨shown, same⟩⟩ | ⟨operand, same⟩
  · rw [same]
    simp only [Severs, operand]
    exact s.wrap_agrees_iff before _
  · rw [same]
    have other := (shown_eq_error_iff _).mp error
    exact iff_of_true (agrees_showError _ s) (by simp [Severs, operand, other])
  · rw [same, agrees_iff_shown rfl]
    have finite := mt (shown_eq_error_iff _).mpr shown
    simp [Severs, operand, replace, finite]
  · rw [same]
    exact iff_of_true h (by simp [Severs, operand])

theorem Agrees.element {lost : Prop} (h : s.Agrees .standard) (coherent : s.Coherent lost)
    (x : Element) : (left (s.element .standard x)).Agrees .standard := by
  have fresh := h.freshen
  rcases element_cases .standard x coherent.result_filled with
    ⟨t, ts, display, -, -, placed, text⟩ | ⟨kept, -⟩ | ⟨r, -, -, -, stopped⟩
  · rw [placed]
    dsimp only
    rcases text with same | ⟨n, -, same⟩ | ⟨y, finite, same⟩
    · exact fresh.of_same same rfl
    · rw [agrees_iff_calm]
      · exact s.freshen_errorShown
      · rw [same]
        exact ne_error_of_legible (.inl n.accepted)
    · apply (agrees_iff_shown same).mpr
      simp [finite, s.freshen_errorShown]
  · rw [kept]
    exact fresh
  · rw [stopped]
    exact h.of_same rfl rfl

theorem agrees_memoryRecall (s : State) : (s.memoryRecall .standard).Agrees .standard := by
  rcases s.memoryRecall_cases .standard with ⟨-, same⟩ | ⟨shown, same⟩
  · rw [same]
    exact agrees_showError _ s
  · rw [same]
    exact (agrees_iff_calm shown).mpr s.freshen_errorShown

theorem agrees_folded (calm : s.errorShown = false) (q : BasicOperator) (a b : Binary64)
    (o : BasicOperator) : (s.folded .standard q a b o).Agrees .standard := by
  unfold State.folded
  split
  · exact agrees_showError _ s
  · rename_i shown
    exact (agrees_iff_calm shown).mpr calm

theorem Agrees.press {lost : Prop} (h : s.Agrees .standard) (coherent : s.Coherent lost)
    (o : BasicOperator) : (s.pressBasic .standard o).Agrees .standard := by
  rcases press_cases .standard o coherent.begun with ⟨-, same⟩ | ⟨q, -, -, replaced⟩ |
    ⟨calm, x, -, ⟨-, entered⟩ | ⟨q, a, -, -, -, folded⟩⟩
  · rw [same]
    exact h
  · rw [replaced]
    exact h.of_same rfl rfl
  · rw [entered]
    exact h.of_same rfl rfl
  · rw [folded]
    exact agrees_folded calm q a x o

theorem agrees_conclude (s : State) {o : Outcome}
    (finite : ∀ x, o = .value x → x.isFinite = true) :
    (s.conclude .standard o).Agrees .standard := by
  cases o with
  | value x =>
    apply (agrees_iff_shown rfl).mpr
    rw [finite x rfl]
    rfl
  | failure kind message raw => exact iff_of_true rfl rfl

theorem Agrees.restore (h : s.Agrees .standard) (expression result : String) :
    (left (s.restore .standard expression result)).Agrees .standard := by
  rcases s.restore_cases .standard expression result with ⟨tokens, -, same⟩ | same
  · rw [same]
    exact decide_eq_true_iff
  · rw [same]
    exact h

/-- What each operation makes of the flag and the display that agree. -/
theorem Agrees.apply_iff {lost : Prop} (h : s.Agrees .standard) (coherent : s.Coherent lost)
    (e : Effect) : (e.apply .standard s).Agrees .standard ↔ ¬ s.Severs e := by
  cases e with
  | rest => exact iff_of_true h id
  | digit d => exact iff_of_true (h.digit coherent d) id
  | decimal => exact iff_of_true coherent.agrees_decimal id
  | backspace => exact h.backspace_iff coherent
  | percent => exact h.percent_iff
  | unary f => exact h.unary_iff f
  | element x => exact iff_of_true (h.element coherent x) id
  | constant c =>
    refine iff_of_true ((agrees_iff_shown rfl).mpr ?_) id
    rw [constant_isFinite]
    exact s.freshen_errorShown
  | press o => exact iff_of_true (h.press coherent o) id
  | finish =>
    rcases s.finish_cases .standard with same | ⟨o, finite, concluded⟩
    · rw [same]
      exact iff_of_true h id
    · rw [concluded]
      exact iff_of_true (s.agrees_conclude finite) id
  | clear => exact iff_of_true s.agrees_clear id
  | clearEntry =>
    rw [Effect.apply, agrees_iff_calm zero_ne_error]
    simp [Severs, clearEntry]
  | clearExpression => exact iff_of_true (h.of_same rfl rfl) id
  | pop =>
    rcases s.pop_cases .standard with ⟨-, same⟩ | ⟨-, -, same⟩ | ⟨-, same⟩
    all_goals
      rw [same]
      exact iff_of_true (h.of_same rfl rfl) id
  | remember x => exact iff_of_true (h.of_same rfl rfl) id
  | recollect => exact iff_of_true s.agrees_memoryRecall id
  | angle a => exact iff_of_true (h.of_same rfl rfl) id
  | mode m =>
    refine iff_of_true ?_ id
    rcases s.setMode_cases m with ⟨-, same⟩ | ⟨-, same⟩
    · rw [Effect.apply, same]
      exact h
    · rw [Effect.apply, same]
      exact s.agrees_clear.of_same rfl rfl
  | restore expression result => exact iff_of_true (h.restore expression result) id

end State

/-- **The flag of an error and the display agree all along just if no input severs them.**
Then the next input starts from scratch only while the error is on the display. -/
theorem agrees_iff_unsevered (angle : AngleMode) (mode : Mode) (history : Option Store)
    (now : Instant) (inputs : List Operation) :
    let d (inputs : List Operation) := (Desk.start .standard angle mode history now).after inputs
    let Unsevered := ∀ before x, before ++ [x] <+: inputs →
      ¬ (d before).state.Severs ((d before).effect x)
    ((∀ before, before <+: inputs → (d before).state.Agrees .standard) ↔ Unsevered) ∧
    (Unsevered → ∀ before, before <+: inputs →
      (d before).state.display ≠ Panel.standard.params.errorText →
        (d before).state.freshen = (d before).state) := by
  intro d Unsevered
  have agree : (∀ before, before <+: inputs → (d before).state.Agrees .standard) ↔ Unsevered :=
    Desk.kept_iff (Desk.coherent_after .standard angle mode history now)
      (fun s coherent agrees e => agrees.apply_iff coherent e)
      ((State.agrees_iff_calm zero_ne_error).mpr rfl) inputs
  refine ⟨agree, ?_⟩
  intro unsevered before run other
  have agrees := agree.mpr unsevered before run
  exact State.freshen_of_calm ((State.agrees_iff_calm other).mp agrees)

/-- A failed division is recalled to mend its divisor. The zero is taken back, and the
digit typed for it starts from scratch. -/
theorem not_agrees_mended :
    let d := (Desk.standard none ⟨0⟩).after [.digit "1", .operator .divide, .digit "0", .equals,
      .recall "1 / 0" "Error", .backspace]
    ¬ d.state.Agrees .standard ∧ d.state.display = "0" ∧ d.state.expressionLine = .ok "1 /" ∧
      (d.perform (.digit "4")).2.state.expressionLine = .ok "4" := by
  decide +kernel

end DeskCalculator.Calculator
