import DeskCalculator.Proofs.Failing
import DeskCalculator.Proofs.RoundTrip

/-!
# What is typed is on the display

What is being typed and the display are written apart from each other, a number that an
operation enters in plain form here and as a panel shows it there. `State.Shows` says that
they go together, as text or as number. Only an operator that is refused for the last
result breaks that (`Shows.apply`), and that operator fails; so the display shows what is
typed as long as nothing has failed: `shows_follow`.
-/

namespace DeskCalculator.Calculator
open Clock Display DeskCalculator.Expr History Number Numeral

namespace State

/-- The display has the text that is being typed, or shows its number. -/
def Shows (p : Panel) (s : State) : Prop :=
  s.entry ≠ "" →
    s.display = s.entry ∨ ∃ x, read? s.entry = some x ∧ s.display = p.shown (some x)

variable {p : Panel} {s : State}

theorem shows_of_empty (empty : s.entry = "") : s.Shows p := fun filled => absurd empty filled

theorem shows_of_same (same : s.display = s.entry) : s.Shows p := fun _ => .inl same

/-- A number in plain form reads back but for the sign of a zero, which no panel shows. -/
theorem shows_of_plain {x : Binary64} (entry : s.entry = plain x)
    (display : s.display = p.shown (some x)) : s.Shows p := by
  intro _
  refine .inr ⟨x.unsignZero, ?_, ?_⟩
  · rw [entry, read?_plain]
  · rw [display, Panel.shown_unsignZero]

theorem Shows.freshen (h : s.Shows p) : s.freshen.Shows p :=
  freshen_kept (shows_of_empty rfl) h

/-- A group is the last operand only while nothing is being typed. -/
theorem entry_of_operand_group {before inner : List Token}
    (h : s.operand = .group before inner) : s.entry = "" := by
  apply Classical.byContradiction
  intro filled
  unfold operand at h
  rw [if_pos (.inl filled)] at h
  split at h <;> cases h

theorem shows_wrap {before inner : List Token} (operand : s.operand = .group before inner)
    (wrapped : List Token) : (s.wrap p before wrapped).Shows p := by
  have empty := entry_of_operand_group operand
  rcases s.wrap_cases p before wrapped with ⟨x, -, -, same⟩ | ⟨-, same⟩
  · rw [same]
    exact shows_of_empty empty
  · rw [same]
    exact shows_of_empty rfl

theorem shows_replace (p : Panel) (before : List Token) (x : Binary64) (s : State) :
    (s.replace p before x).Shows p := shows_of_plain rfl rfl

theorem Shows.backspace (h : s.Shows p) : s.backspace.Shows p := by
  rcases s.backspace_cases with ⟨-, back⟩ | ⟨empty, -, back⟩ | ⟨-, -, back⟩
  · rw [back]
    exact fun filled => .inl (if_neg filled)
  · rw [back]
    exact shows_of_empty empty
  · rw [back]
    exact h

theorem Shows.percent (h : s.Shows p) : (s.percent p).Shows p := by
  rcases s.percent_cases p with ⟨before, inner, operand, same⟩ | ⟨before, x, -, same⟩ | ⟨-, same⟩
  · rw [same]
    exact shows_wrap operand _
  · rw [same]
    exact shows_replace p _ _ s
  · rw [same]
    exact h

theorem Shows.unary (h : s.Shows p) (f : Function) : (s.unary p f).Shows p := by
  rcases s.unary_cases p f with ⟨before, inner, operand, same⟩ |
    ⟨before, x, -, ⟨-, same⟩ | ⟨-, same⟩⟩ | ⟨-, same⟩
  · rw [same]
    exact shows_wrap operand _
  · rw [same]
    exact shows_of_empty rfl
  · rw [same]
    exact shows_replace p _ _ s
  · rw [same]
    exact h

theorem Shows.element (h : s.Shows p) {lost : Prop} (coherent : s.Coherent lost) {x : Element}
    (accepted : ¬ s.Refuses (.element x)) : (left (s.element p x)).Shows p := by
  rcases element_cases p x coherent.result_filled with
    ⟨t, ts, display, -, -, placed, -⟩ | ⟨kept, -⟩ | ⟨r, -, -, refuses, -⟩
  · rw [placed]
    exact shows_of_empty rfl
  · rw [kept]
    exact h.freshen
  · exact absurd refuses accepted

theorem Shows.press (h : s.Shows p) {lost : Prop} (coherent : s.Coherent lost)
    (o : BasicOperator) : (s.pressBasic p o).Shows p := by
  rcases press_cases p o coherent.begun with ⟨-, same⟩ | ⟨q, -, -, replaced⟩ |
    ⟨-, x, -, ⟨-, entered⟩ | ⟨q, a, -, -, -, folded⟩⟩
  · rw [same]
    exact h
  · rw [replaced]
    exact h
  · rw [entered]
    exact shows_of_empty rfl
  · rw [folded, State.folded]
    split <;> exact shows_of_empty rfl

theorem Shows.pop (h : s.Shows p) : (Effect.pop.apply p s).Shows p := by
  rcases s.pop_cases p with ⟨empty, popped⟩ | ⟨-, -, popped⟩ | ⟨-, popped⟩
  · rw [popped]
    exact shows_of_empty empty
  · rw [popped]
    exact shows_of_empty rfl
  · rw [popped]
    exact h

/-- **Every effect keeps the display and what is being typed together,** unless an
operator cannot continue from the last result. -/
theorem Shows.apply (h : s.Shows p) {lost : Prop} (coherent : s.Coherent lost) {e : Effect}
    (accepted : ¬ s.Refuses e) : (e.apply p s).Shows p := by
  cases e with
  | rest => exact h
  | digit d =>
    exact digit_kept h (shows_of_empty rfl) (fun text => shows_of_same rfl) p d
  | decimal =>
    obtain ⟨text, typed, -⟩ := s.decimal_cases
    rw [Effect.apply, typed]
    exact shows_of_same rfl
  | backspace => exact h.backspace
  | percent => exact h.percent
  | unary f => exact h.unary f
  | element x => exact h.element coherent accepted
  | constant c => exact shows_of_plain rfl rfl
  | press o => exact h.press coherent o
  | finish =>
    rcases s.finish_cases p with same | ⟨o, -, concluded⟩
    · rw [same]
      exact h
    · rw [concluded]
      exact shows_of_empty rfl
  | clear | clearEntry | clearExpression => exact shows_of_empty rfl
  | pop => exact h.pop
  | remember x | angle a => exact h
  | recollect =>
    rcases s.memoryRecall_cases p with ⟨-, same⟩ | ⟨-, same⟩
    · rw [Effect.apply, same]
      exact shows_of_empty rfl
    · rw [Effect.apply, same]
      exact shows_of_plain rfl rfl
  | mode m =>
    rcases s.setMode_cases m with ⟨-, same⟩ | ⟨-, same⟩
    · rw [Effect.apply, same]
      exact h
    · rw [Effect.apply, same]
      exact shows_of_empty rfl
  | restore expression result =>
    rcases s.restore_cases p expression result with ⟨tokens, -, same⟩ | same
    · rw [Effect.apply, same]
      exact shows_of_empty rfl
    · rw [Effect.apply, same]
      exact h

end State

namespace Desk

/-- An operator that cannot continue from the last result fails. -/
theorem not_refuses_of_ok {d : Desk} (legible : ∀ r, d.state.lastResult = some r → r ≠ "")
    {x : Operation} {reply : Reply} (success : (d.perform x).1 = .ok reply) :
    ¬ d.state.Refuses (d.effect x) := by
  intro refuses
  have stopped : ∃ s, d.state.remnant? (d.effect x) = some s := by
    unfold State.Refuses at refuses
    split at refuses
    · rename_i o effect
      obtain ⟨r, resumed, refused⟩ := refuses
      rw [effect, State.remnant?_of_resumed resumed, refused]
      exact ⟨_, rfl⟩
    · exact absurd refuses id
  obtain ⟨s, remnant⟩ := stopped
  exact not_wrecks_ok success ((wrecks_perform_iff legible x).mpr remnant)

/-- What every success keeps holds as long as nothing fails. -/
theorem follow_kept {Kept : Desk → Prop}
    (step : ∀ d x, Kept d → ∀ reply, (d.perform x).1 = .ok reply → Kept (d.perform x).2)
    {inputs : List Operation} {d e : Desk} (first : Kept d) (success : d.follow inputs = .ok e) :
    Kept e := by
  induction inputs generalizing d with
  | nil =>
    cases success
    exact first
  | cons x rest ih =>
    rw [follow] at success
    split at success
    · rename_i reply next performed
      have kept := step d x first reply (by rw [performed])
      rw [performed] at kept
      exact ih kept success
    · cases success

end Desk

/-- **What is being typed is on the display.** On any panel, and as long as nothing has
failed, the display has the text that is being typed, or the text that the panel gives to
its number; and that number is the one operations reckon with. -/
theorem shows_follow (p : Panel) (angle : AngleMode) (mode : Mode) (history : Option Store)
    (now : Instant) (inputs : List Operation) {d : Desk}
    (success : (Desk.start p angle mode history now).follow inputs = .ok d)
    (typing : d.state.entry ≠ "") :
    d.state.currentValue? = read? d.state.entry ∧
    (d.state.display = d.state.entry ∨
      ∃ x, read? d.state.entry = some x ∧ format p.params (some x) = .ok d.state.display) := by
  have step : ∀ (d : Desk) (x : Operation),
      d.panel = p ∧ d.state.Coherent True ∧ d.state.Shows p →
      ∀ reply, (d.perform x).1 = .ok reply →
        (d.perform x).2.panel = p ∧ (d.perform x).2.state.Coherent True ∧
          (d.perform x).2.state.Shows p := by
    rintro d x ⟨rfl, coherent, shows⟩ reply success
    obtain ⟨panel, state⟩ := d.yields_perform x
    refine ⟨panel, ?_, ?_⟩
    · rw [state]
      exact coherent.apply d.panel _ fun _ => trivial
    · rw [state]
      exact shows.apply coherent (Desk.not_refuses_of_ok coherent.result_filled success)
  obtain ⟨-, -, shows⟩ := Desk.follow_kept step
    ⟨rfl, State.coherent_of_idle (.inl rfl) rfl rfl rfl, State.shows_of_empty rfl⟩ success
  refine ⟨by rw [State.currentValue?, if_neg typing], ?_⟩
  rcases shows typing with same | ⟨x, read, shown⟩
  · exact .inl same
  · exact .inr ⟨x, read, by rw [shown, format_eq_shown]⟩

/-- A third is entered with more digits than the display has. -/
theorem shows_third :
    let inputs : List Operation := [.digit "3", .unary .reciprocal]
    let start := Desk.standard none ⟨0⟩
    let d := start.after inputs
    start.follow inputs = .ok d ∧ d.state.entry = "0.3333333333333333" ∧
      d.state.display = "0.333333333333" ∧
      ∃ x, read? d.state.entry = some x ∧
        format Panel.standard.params (some x) = .ok d.state.display := by
  intro inputs start d
  have success : start.follow inputs = .ok d := by decide +kernel
  have entry : d.state.entry = "0.3333333333333333" := by decide +kernel
  have display : d.state.display = "0.333333333333" := by decide +kernel
  have typing : d.state.entry ≠ "" := by rw [entry]; decide
  obtain ⟨-, shown⟩ := shows_follow .standard .radians .advanced none ⟨0⟩ inputs success typing
  refine ⟨success, entry, display, shown.resolve_left ?_⟩
  rw [entry, display]
  decide

end DeskCalculator.Calculator
