import DeskCalculator.Proofs.Operations

/-!
# The two modes do not mix

Basic mode has an operand with a pending operator behind it, or neither. Every effect
but a pressed operator leaves both as they are or clears both away (`spares_apply`),
and operators are pressed in basic mode only, so advanced mode never has any:
`parted_after`. The other way round tokens come to an expression by keys in advanced
mode only, which is why the keypad alone leaves none in basic mode.
-/

namespace DeskCalculator.Calculator
open Clock Display DeskCalculator.Expr History Number

/-- Whether an effect belongs to a mode: operators are folded, and constants are
entered as digits, in basic mode. -/
def Effect.Suits (m : Mode) : Effect → Prop
  | .press _ | .constant _ => m = .basic
  | _ => True

/-- Whether an effect of a key belongs to a mode: keys give tokens in advanced mode, and
none brings back a past expression. -/
def Effect.Keyed (m : Mode) : Effect → Prop
  | .element _ => m = .advanced
  | .restore _ _ => False
  | _ => True

/-- The inputs of the keypad: keys and commands, the modes, the memory, and time going by. -/
def Operation.onKeypad : Operation → Bool
  | .key _ | .command _ _ | .mode _ | .toggleAngle | .memoryClear | .memoryRecall
  | .memoryAdd | .memorySubtract | .clock _ => true
  | _ => false

namespace State

/-- No calculation of basic mode is in progress. -/
def Idle (s : State) : Prop := s.first = none ∧ s.pending = none ∧ s.waiting = false

/-- The later state has the first operand and the operator of the earlier one, or none. -/
def Spares (s s' : State) : Prop :=
  s'.Idle ∨ s'.first = s.first ∧ s'.pending = s.pending ∧ s'.mode = s.mode ∧
    (s'.waiting = true → s.waiting = true)

/-- The first operand and the operator of basic mode come together. -/
structure Parted (s : State) : Prop where
  together : (∃ a, s.first = some a) ↔ ∃ o, s.pending = some o
  waiting : s.waiting = true → ∃ o, s.pending = some o
  advanced : s.mode = .advanced → s.first = none ∧ s.pending = none

variable {s s' s'' : State}

theorem Spares.trans (h : s.Spares s') (h' : s'.Spares s'') : s.Spares s'' := by
  rcases h' with idle | ⟨first, pending, mode, waiting⟩
  · exact .inl idle
  · rcases h with ⟨first', pending', waiting'⟩ | ⟨first', pending', mode', waiting'⟩
    · refine .inl ⟨first.trans first', pending.trans pending', ?_⟩
      cases later : s''.waiting with
      | false => rfl
      | true => rw [waiting later] at waiting'; cases waiting'
    · exact .inr ⟨first.trans first', pending.trans pending', mode.trans mode',
        waiting' ∘ waiting⟩

theorem spares_self (s : State) : s.Spares s := .inr ⟨rfl, rfl, rfl, id⟩

theorem spares_freshen (s : State) : s.Spares s.freshen :=
  freshen_kept (.inl ⟨rfl, rfl, rfl⟩) s.spares_self

theorem spares_typed (s : State) (text : String) : s.Spares (s.freshen.typed text) :=
  s.spares_freshen.trans (.inr ⟨rfl, rfl, rfl, by simp [typed]⟩)

theorem spares_showError (p : Panel) (s s' : State) : s.Spares (s'.showError p) :=
  .inl ⟨rfl, rfl, rfl⟩

theorem spares_wrap (p : Panel) (before wrapped : List Token) (s : State) :
    s.Spares (s.wrap p before wrapped) := by
  rcases s.wrap_cases p before wrapped with ⟨x, -, -, same⟩ | ⟨-, same⟩
  · rw [same]
    exact .inr ⟨rfl, rfl, rfl, id⟩
  · rw [same]
    exact spares_showError p s s

theorem spares_replace (p : Panel) (before : List Token) (x : Binary64) (s : State) :
    s.Spares (s.replace p before x) := .inr ⟨rfl, rfl, rfl, id⟩

theorem spares_percent (p : Panel) (s : State) : s.Spares (s.percent p) := by
  rcases s.percent_cases p with ⟨before, inner, -, same⟩ | ⟨before, x, -, same⟩ | ⟨-, same⟩
  · rw [same]
    exact spares_wrap p _ _ s
  · rw [same]
    exact spares_replace p _ _ s
  · rw [same]
    exact s.spares_self

theorem spares_unary (p : Panel) (f : Function) (s : State) : s.Spares (s.unary p f) := by
  rcases s.unary_cases p f with ⟨before, inner, -, same⟩ |
    ⟨before, x, -, ⟨-, same⟩ | ⟨-, same⟩⟩ | ⟨-, same⟩
  · rw [same]
    exact spares_wrap p _ _ s
  · rw [same]
    exact spares_showError p s s
  · rw [same]
    exact spares_replace p _ _ s
  · rw [same]
    exact s.spares_self

/-- What becomes of an element, or of its refusal, is text and tokens. -/
theorem element_eq (p : Panel) (x : Element) (s : State) :
    ∃ tokens entry display lastResult, left (s.element p x) =
      { s.freshen with tokens, entry, display, lastResult } := by
  cases x with
  | stray text => exact ⟨_, _, _, _, rfl⟩
  | token t =>
    obtain ⟨entry, same, -⟩ := behind_eq t s.freshen
    by_cases readable : (s.freshen.behind t).Readable
    · obtain ⟨ts, tokens⟩ := currentTokens_of_readable readable
      obtain ⟨display, placed, -⟩ := place_token p t tokens
      rw [element, placed, same]
      exact ⟨_, _, _, _, rfl⟩
    · rw [element_of_not_readable p readable, same]
      exact ⟨_, _, _, _, rfl⟩

theorem mode_element (p : Panel) (x : Element) (s : State) :
    (left (s.element p x)).mode = s.mode := by
  obtain ⟨tokens, entry, display, lastResult, same⟩ := element_eq p x s
  rw [same]
  exact s.freshen_mode

/-- **Only a pressed operator touches the operands of basic mode,** other than to clear
them away. -/
theorem spares_apply (p : Panel) {e : Effect} (other : ∀ o, e ≠ .press o) (s : State) :
    s.Spares (e.apply p s) := by
  cases e with
  | digit d => exact digit_kept s.spares_self (.inl ⟨rfl, rfl, rfl⟩) s.spares_typed p d
  | decimal =>
    obtain ⟨text, typed, -⟩ := s.decimal_cases
    rw [Effect.apply, typed]
    exact s.spares_typed text
  | backspace =>
    rcases s.backspace_cases with ⟨-, back⟩ | ⟨-, -, back⟩ | ⟨-, -, back⟩ <;>
      rw [Effect.apply, back] <;> exact .inr ⟨rfl, rfl, rfl, id⟩
  | percent => exact s.spares_percent p
  | unary f => exact s.spares_unary p f
  | element x =>
    obtain ⟨tokens, entry, display, lastResult, same⟩ := element_eq p x s
    rw [Effect.apply, same]
    exact s.spares_freshen.trans (.inr ⟨rfl, rfl, rfl, id⟩)
  | constant c => exact s.spares_freshen.trans (.inr ⟨rfl, rfl, rfl, by simp [Effect.apply]⟩)
  | press o => exact absurd rfl (other o)
  | finish =>
    rcases s.finish_cases p with same | ⟨o, -, concluded⟩
    · rw [same]
      exact s.spares_self
    · rw [concluded]
      exact .inl ⟨rfl, rfl, rfl⟩
  | clear => exact .inl ⟨rfl, rfl, rfl⟩
  | pop =>
    rcases s.pop_cases p with ⟨-, popped⟩ | ⟨-, -, popped⟩ | ⟨-, popped⟩ <;>
      rw [popped] <;> exact .inr ⟨rfl, rfl, rfl, id⟩
  | recollect =>
    rcases s.memoryRecall_cases p with ⟨-, same⟩ | ⟨-, same⟩
    · rw [Effect.apply, same]
      exact spares_showError p s s
    · rw [Effect.apply, same]
      exact s.spares_freshen.trans (.inr ⟨rfl, rfl, rfl, by simp⟩)
  | mode m =>
    rcases s.setMode_cases m with ⟨-, same⟩ | ⟨-, same⟩
    · rw [Effect.apply, same]
      exact s.spares_self
    · rw [Effect.apply, same]
      exact .inl ⟨rfl, rfl, rfl⟩
  | restore expression result =>
    rcases s.restore_cases p expression result with ⟨tokens, -, same⟩ | same
    · rw [Effect.apply, same]
      exact .inl ⟨rfl, rfl, rfl⟩
    · rw [Effect.apply, same]
      exact s.spares_self
  | _ => exact .inr ⟨rfl, rfl, rfl, id⟩

theorem parted_of_idle (h : s.Idle) : s.Parted := by
  obtain ⟨first, pending, waiting⟩ := h
  exact ⟨by simp [first, pending], by simp [waiting], fun _ => ⟨first, pending⟩⟩

theorem Parted.spares (h : s.Parted) (spares : s.Spares s') : s'.Parted := by
  rcases spares with idle | ⟨first, pending, mode, waiting⟩
  · exact parted_of_idle idle
  · refine ⟨?_, ?_, ?_⟩
    · rw [first, pending]
      exact h.together
    · rw [pending]
      exact h.waiting ∘ waiting
    · rw [first, pending, mode]
      exact h.advanced

/-- A pending operator has an operand in front of it. -/
theorem Parted.begun (h : s.Parted) (q : BasicOperator) (pending : s.pending = some q) :
    ∃ a, s.first = some a := h.together.mpr ⟨q, pending⟩

theorem parted_of_pressed (basic : s.mode = .basic) {a : Binary64} {o : BasicOperator}
    (first : s.first = some a) (pending : s.pending = some o) : s.Parted := by
  refine ⟨by simp [first, pending], fun _ => ⟨o, pending⟩, ?_⟩
  rw [basic]
  intro other
  cases other

theorem Parted.press (h : s.Parted) (basic : s.mode = .basic) (p : Panel) (o : BasicOperator) :
    (s.pressBasic p o).Parted := by
  rcases press_cases p o h.begun with ⟨-, same⟩ | ⟨q, pending, -, replaced⟩ |
    ⟨-, x, -, ⟨-, entered⟩ | ⟨q, a, -, -, -, folded⟩⟩
  · rw [same]
    exact h
  · rw [replaced]
    obtain ⟨a, first⟩ := h.begun q pending
    exact parted_of_pressed basic first rfl
  · rw [entered]
    exact parted_of_pressed basic rfl rfl
  · rw [folded, State.folded]
    split
    · exact parted_of_idle ⟨rfl, rfl, rfl⟩
    · exact parted_of_pressed basic rfl rfl

theorem Parted.apply (h : s.Parted) (p : Panel) {e : Effect} (suits : e.Suits s.mode) :
    (e.apply p s).Parted := by
  cases e with
  | press o => exact h.press suits p o
  | _ => exact h.spares (spares_apply p (by simp) s)

/-! Tokens -/

/-- Basic mode has no expression. -/
def Tokenless (s : State) : Prop := s.mode = .basic → s.tokens = []

theorem Tokenless.freshen (h : s.Tokenless) : s.freshen.Tokenless :=
  freshen_kept (fun _ => rfl) h

theorem Tokenless.wrap (h : s.Tokenless) (filled : s.tokens ≠ []) (p : Panel)
    (before wrapped : List Token) : (s.wrap p before wrapped).Tokenless := by
  rcases s.wrap_cases p before wrapped with ⟨x, -, -, same⟩ | ⟨-, same⟩
  · rw [same]
    exact fun basic => absurd (h basic) filled
  · rw [same]
    exact fun _ => rfl

theorem Tokenless.replace (h : s.Tokenless) {before : List Token} {x : Binary64}
    (operand : s.operand = .value before x) (p : Panel) (y : Binary64) :
    (s.replace p before y).Tokenless :=
  fun basic => operand_value_empty operand (h basic)

theorem Tokenless.backspace (h : s.Tokenless) : s.backspace.Tokenless := by
  rcases s.backspace_cases with ⟨-, back⟩ | ⟨-, filled, back⟩ | ⟨-, -, back⟩
  · rw [back]
    exact h
  · rw [back]
    exact fun basic => absurd (h basic) filled
  · rw [back]
    exact h

theorem Tokenless.percent (h : s.Tokenless) (p : Panel) : (s.percent p).Tokenless := by
  rcases s.percent_cases p with
    ⟨before, inner, operand, same⟩ | ⟨before, x, operand, same⟩ | ⟨-, same⟩
  · rw [same]
    exact h.wrap (operand_group_filled operand) p _ _
  · rw [same]
    exact h.replace operand p _
  · rw [same]
    exact h

theorem Tokenless.unary (h : s.Tokenless) (p : Panel) (f : Function) :
    (s.unary p f).Tokenless := by
  rcases s.unary_cases p f with ⟨before, inner, operand, same⟩ |
    ⟨before, x, operand, ⟨-, same⟩ | ⟨-, same⟩⟩ | ⟨-, same⟩
  · rw [same]
    exact h.wrap (operand_group_filled operand) p _ _
  · rw [same]
    exact fun _ => rfl
  · rw [same]
    exact h.replace operand p _
  · rw [same]
    exact h

theorem Tokenless.press (h : s.Tokenless) (parted : s.Parted) (p : Panel) (o : BasicOperator) :
    (s.pressBasic p o).Tokenless := by
  rcases press_cases p o parted.begun with ⟨-, same⟩ | ⟨q, -, -, replaced⟩ |
    ⟨-, x, -, ⟨-, entered⟩ | ⟨q, a, -, -, -, folded⟩⟩
  · rw [same]
    exact h
  · rw [replaced]
    exact h
  · rw [entered]
    exact h
  · rw [folded, State.folded]
    split
    · exact fun _ => rfl
    · exact h

theorem Tokenless.pop (h : s.Tokenless) (p : Panel) : (Effect.pop.apply p s).Tokenless := by
  rcases s.pop_cases p with ⟨-, popped⟩ | ⟨-, -, popped⟩ | ⟨-, popped⟩
  · rw [popped]
    intro basic
    simp [h basic]
  · rw [popped]
    exact h
  · rw [popped]
    exact h

/-- What the keypad can do gives basic mode no tokens. -/
theorem Tokenless.apply (h : s.Tokenless) (parted : s.Parted) (p : Panel) {e : Effect}
    (keyed : e.Keyed s.mode) : (e.apply p s).Tokenless := by
  cases e with
  | digit d =>
    exact digit_kept h (fun _ => rfl) (fun _ => h.freshen) p d
  | decimal =>
    obtain ⟨text, typed, -⟩ := s.decimal_cases
    rw [Effect.apply, typed]
    exact h.freshen
  | backspace => exact h.backspace
  | percent => exact h.percent p
  | unary f => exact h.unary p f
  | element x =>
    intro basic
    rw [Effect.apply, mode_element, keyed] at basic
    cases basic
  | constant c => exact h.freshen
  | press o => exact h.press parted p o
  | finish =>
    rcases s.finish_cases p with same | ⟨o, -, concluded⟩
    · rw [same]
      exact h
    · rw [concluded]
      exact fun _ => rfl
  | pop => exact h.pop p
  | recollect =>
    rcases s.memoryRecall_cases p with ⟨-, same⟩ | ⟨-, same⟩
    · rw [Effect.apply, same]
      exact fun _ => rfl
    · rw [Effect.apply, same]
      exact h.freshen
  | mode m =>
    rcases s.setMode_cases m with ⟨-, same⟩ | ⟨-, same⟩
    · rw [Effect.apply, same]
      exact h
    · rw [Effect.apply, same]
      exact fun _ => rfl
  | restore expression result => exact absurd keyed id
  | clear => exact fun _ => rfl
  | clearExpression => exact fun _ => rfl
  | _ => exact h

end State

namespace Desk

/-! Which effect an input has in which mode -/

theorem belongs_key (s : State) (t : Token) :
    (s.keyEffect t).Suits s.mode ∧ (s.keyEffect t).Keyed s.mode := by
  unfold State.keyEffect
  cases s.mode with
  | advanced => exact ⟨trivial, rfl⟩
  | basic => exact ⟨trivial, trivial⟩

theorem belongs_press (s : State) (o : BasicOperator) :
    (s.pressEffect o).Suits s.mode ∧ (s.pressEffect o).Keyed s.mode := by
  unfold State.pressEffect
  cases s.mode with
  | advanced => exact ⟨trivial, rfl⟩
  | basic => exact ⟨rfl, trivial⟩

theorem belongs_constant (s : State) (c : Constant) :
    (s.constantEffect c).Suits s.mode ∧ (s.constantEffect c).Keyed s.mode := by
  unfold State.constantEffect
  cases s.mode with
  | advanced => exact ⟨trivial, rfl⟩
  | basic => exact ⟨rfl, trivial⟩

theorem belongs_memory (s : State) (reckon : Binary64 → Binary64 → Binary64) (m : Mode) :
    (s.memoryEffect reckon).Suits m ∧ (s.memoryEffect reckon).Keyed m := by
  unfold State.memoryEffect
  split <;> exact ⟨trivial, trivial⟩

theorem belongs_finish (d : Desk) (m : Mode) :
    d.finishEffect.Suits m ∧ d.finishEffect.Keyed m := by
  unfold finishEffect
  split <;> exact ⟨trivial, trivial⟩

theorem suits_recall (d : Desk) (i : Int) (m : Mode) : (d.recallEffect i).Suits m := by
  unfold recallEffect
  split
  · trivial
  · split
    · trivial
    · split <;> trivial

theorem belongs_command (d : Desk) (argument : Option String) (c : Command) :
    (d.commandEffect argument c).Suits d.state.mode ∧
      (d.commandEffect argument c).Keyed d.state.mode := by
  cases c with
  | digit => cases argument <;> exact ⟨trivial, trivial⟩
  | parenOpen | parenClose | power | sin | cos | tan | ln | log => exact belongs_key d.state _
  | add | subtract | multiply | divide => exact belongs_press d.state _
  | pi | e => exact belongs_constant d.state _
  | equals => exact belongs_finish d _
  | memoryPlus | memoryMinus => exact belongs_memory d.state _ _
  | _ => exact ⟨trivial, trivial⟩

/-- An operator is folded, and a constant entered as digits, in basic mode only. -/
theorem suits_effect (d : Desk) (x : Operation) : (d.effect x).Suits d.state.mode := by
  cases x with
  | key name =>
    simp only [effect]
    split
    · exact (belongs_command d _ _).1
    · trivial
  | command c argument => exact (belongs_command d argument c).1
  | text symbol =>
    simp only [effect]
    split <;> trivial
  | constant c => exact (belongs_constant d.state c).1
  | operator o => exact (belongs_press d.state o).1
  | equals => exact (belongs_finish d _).1
  | memoryAdd | memorySubtract => exact (belongs_memory d.state _ _).1
  | recallIndex i => exact suits_recall d i _
  | _ => trivial

/-- The keypad gives tokens in advanced mode only. -/
theorem keyed_effect (d : Desk) {x : Operation} (keypad : x.onKeypad = true) :
    (d.effect x).Keyed d.state.mode := by
  cases x with
  | key name =>
    simp only [effect]
    split
    · exact (belongs_command d _ _).2
    · trivial
  | command c argument => exact (belongs_command d argument c).2
  | memoryAdd | memorySubtract => exact (belongs_memory d.state _ _).2
  | mode | toggleAngle | memoryClear | memoryRecall | clock => trivial
  | _ => cases keypad

theorem state_parted_after {d : Desk} (h : d.state.Parted) (inputs : List Operation) :
    (d.after inputs).state.Parted := by
  induction inputs using List.reverseRecOn with
  | nil => exact h
  | append_singleton before x ih =>
    rw [state_after_concat]
    exact ih.apply d.panel (suits_effect _ x)

theorem state_tokenless_after {d : Desk} (h : d.state.Tokenless) (parted : d.state.Parted)
    {inputs : List Operation} (keypad : ∀ x ∈ inputs, x.onKeypad = true) :
    (d.after inputs).state.Tokenless := by
  induction inputs using List.reverseRecOn with
  | nil => exact h
  | append_singleton before x ih =>
    have here := ih fun y hy => keypad y (List.mem_append_left _ hy)
    rw [state_after_concat]
    exact here.apply (state_parted_after parted before) d.panel
      (keyed_effect _ (keypad x (by simp)))

end Desk

/-- **The modes do not mix.** Whatever a calculator has been given, successes and failures,
it has a first operand just if an operator is pending, it waits for a second operand only
with both, and in advanced mode it has neither. In basic mode it has no tokens, if all it
has been given came from the keypad. -/
theorem parted_after (p : Panel) (angle : AngleMode) (mode : Mode) (history : Option Store)
    (now : Instant) (inputs : List Operation) :
    let s := ((Desk.start p angle mode history now).after inputs).state
    (s.first.isSome = true ↔ s.pending.isSome = true) ∧
    (s.waiting = true → s.first.isSome = true ∧ s.pending.isSome = true) ∧
    (s.mode = .advanced → s.first = none ∧ s.pending = none) ∧
    ((∀ x ∈ inputs, x.onKeypad = true) → s.mode = .basic → s.tokens = []) := by
  intro s
  have begin : (Desk.start p angle mode history now).state.Parted :=
    State.parted_of_idle ⟨rfl, rfl, rfl⟩
  have parted : s.Parted := Desk.state_parted_after begin inputs
  have together : s.first.isSome = true ↔ s.pending.isSome = true := by
    rw [Option.isSome_iff_exists, Option.isSome_iff_exists]
    exact parted.together
  refine ⟨together, ?_, parted.advanced, ?_⟩
  · intro waiting
    have pending := Option.isSome_iff_exists.mpr (parted.waiting waiting)
    exact ⟨together.mpr pending, pending⟩
  · intro keypad
    exact Desk.state_tokenless_after (fun _ => rfl) begin keypad

/-- An expression given up for basic mode, where an operator has been pressed. -/
theorem parted_after_switch :
    let inputs : List Operation := [.command .pi none, .command .sin none, .mode .basic,
      .key "7", .key "+"]
    let s := ((Desk.standard none ⟨0⟩).after inputs).state
    (∀ x ∈ inputs, x.onKeypad = true) ∧ s.mode = .basic ∧ s.waiting = true ∧
      (s.first.isSome = true ∧ s.pending.isSome = true) ∧ s.tokens = [] := by
  intro inputs s
  have keypad : ∀ x ∈ inputs, x.onKeypad = true := by decide
  have basic : s.mode = .basic := by decide +kernel
  have waiting : s.waiting = true := by decide +kernel
  obtain ⟨-, both, -, tokens⟩ := parted_after .standard .radians .advanced none ⟨0⟩ inputs
  exact ⟨keypad, basic, waiting, both waiting, tokens keypad basic⟩

end DeskCalculator.Calculator
