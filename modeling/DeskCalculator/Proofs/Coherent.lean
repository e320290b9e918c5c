import DeskCalculator.Proofs.Operations

/-!
# What any input leaves

`State.Coherent` says what holds of a calculator in either mode, on any panel, whatever
it has been given. What is being typed is a simple text, or what is left of the name of
an infinity or of nan; that only if an operation that `Spoils` it has been done, which
the proposition `lost` stands for. The last result goes with an empty expression and no
error, and a pending operator with a first operand.
-/

namespace DeskCalculator.Numeral
open Number

/-- The start of the name of an infinity or of nan, with whatever follows. -/
def namesNonfinite : List Char → Bool
  | 'N' :: _ => true
  | cs => namesInfinity cs

theorem namesNonfinite_of_namesInfinity {cs : List Char} (h : namesInfinity cs = true) :
    namesNonfinite cs = true := by
  unfold namesNonfinite
  split
  · rfl
  · exact h

theorem namesNonfinite_cases {cs : List Char} (h : namesNonfinite cs = true) :
    (∃ rest, cs = 'N' :: rest) ∨ namesInfinity cs = true := by
  unfold namesNonfinite at h
  split at h
  · rename_i rest
    exact .inl ⟨rest, rfl⟩
  · exact .inr h

theorem namesNonfinite_append {cs : List Char} (h : namesNonfinite cs = true) (ds : List Char) :
    namesNonfinite (cs ++ ds) = true := by
  rcases namesNonfinite_cases h with ⟨rest, rfl⟩ | named
  · rfl
  · exact namesNonfinite_of_namesInfinity (namesInfinity_append named ds)

theorem namesNonfinite_dropLast {cs : List Char} (h : namesNonfinite cs = true) :
    namesNonfinite cs.dropLast = true ∨ ∃ negative, cs.dropLast = sign negative := by
  rcases namesNonfinite_cases h with ⟨rest, rfl⟩ | named
  · cases rest with
    | nil => exact .inr ⟨false, rfl⟩
    | cons c rest => exact .inl rfl
  · exact (namesInfinity_dropLast named).imp_left namesNonfinite_of_namesInfinity

theorem not_accepts_of_namesNonfinite {cs : List Char} (h : namesNonfinite cs = true) :
    accepts cs = false := by
  rcases namesNonfinite_cases h with ⟨rest, rfl⟩ | named
  · have letter : Text.isDigit 'N' = false := by decide
    rw [accepts.eq_2 _ (by simp)]
    simp [isUnsigned, letter]
  · exact not_accepts_of_namesInfinity named

theorem namesNonfinite_plain {x : Binary64} (h : x.isFinite = false) :
    namesNonfinite (plain x).toList = true := by
  cases x with
  | nan => decide
  | infinity s => exact namesNonfinite_of_namesInfinity (namesInfinity_plain s)
  | finite s m => cases h

/-- What may be being typed: a simple text, or what is left of a number without one. -/
def Entered (lost : Prop) (text : String) : Prop :=
  (∃ n k, Simple text.toList n k) ∨ lost ∧ namesNonfinite text.toList = true

variable {lost : Prop}

theorem Entered.accepts_or {text : String} (h : Entered lost text) :
    accepts text.toList = true ∨ lost ∧ namesNonfinite text.toList = true := by
  rcases h with ⟨n, k, simple⟩ | named
  · exact .inl simple.accepts
  · exact .inr named

theorem Entered.of_accepts {text : String} (h : Entered lost text)
    (accepted : accepts text.toList = true) {lost' : Prop} : Entered lost' text := by
  rcases h with simple | ⟨-, named⟩
  · exact .inl simple
  · rw [not_accepts_of_namesNonfinite named] at accepted
    cases accepted

theorem Entered.ne_empty {text : String} (h : Entered lost text) : text ≠ "" := by
  rintro rfl
  rcases h.accepts_or with h | ⟨-, h⟩
  · cases h
  · cases h

theorem entered_plain {x : Binary64} (h : x.isFinite = false → lost) : Entered lost (plain x) := by
  cases finite : x.isFinite with
  | false => exact .inr ⟨h finite, namesNonfinite_plain finite⟩
  | true =>
    cases x with
    | nan => cases finite
    | infinity s => cases finite
    | finite s m => exact .inl ⟨_, _, simple_plain s m⟩

theorem plain_ne_empty (x : Binary64) : plain x ≠ "" := by
  have entered : Entered True (plain x) := entered_plain fun _ => trivial
  exact entered.ne_empty

theorem entered_digit {c : Char} (digit : c.isDigit = true) :
    Entered lost (String.singleton c) := .inl ⟨_, _, simple_singleton digit⟩

theorem entered_zero_point : Entered lost "0." := .inl ⟨_, _, simple_zero_point⟩

theorem Entered.digit {text : String} (h : Entered lost text) {c : Char}
    (digit : c.isDigit = true) : Entered lost (text ++ String.singleton c) := by
  rw [Entered, String.toList_append, String.toList_singleton]
  rcases h with ⟨n, k, simple⟩ | ⟨gone, named⟩
  · exact .inl (simple.digit digit)
  · exact .inr ⟨gone, namesNonfinite_append named _⟩

theorem Entered.point {text : String} (h : Entered lost text) (none : '.' ∉ text.toList) :
    Entered lost (text ++ ".") := by
  rw [Entered, String.toList_append]
  rcases h with ⟨n, k, simple⟩ | ⟨gone, named⟩
  · exact .inl ⟨n, k, simple.point none⟩
  · exact .inr ⟨gone, namesNonfinite_append named _⟩

end DeskCalculator.Numeral

namespace DeskCalculator.Calculator
open Clock Display DeskCalculator.Expr History Number Numeral

namespace State

variable {lost : Prop}

structure Coherent (lost : Prop) (s : State) : Prop where
  entry : s.entry = "" ∨ Entered lost s.entry
  result : ∀ r, s.lastResult = some r → Legible r ∧ s.tokens = [] ∧ s.errorShown = false
  pending : ∀ o, s.pending = some o → s.errorShown = false ∧ ∃ a, s.first = some a
  waiting : s.waiting = true → ∃ o, s.pending = some o

/-- An operation that may leave what is no numeral in the place of what is being typed. -/
def Spoils (s : State) : Effect → Prop
  | .percent => ∃ before x, s.operand = .value before x ∧ x.isFinite = false
  | e => s.Refuses e

/-- Without an expression nothing is left of a calculation before. -/
theorem coherent_of_idle {s : State} (entry : s.entry = "" ∨ Entered lost s.entry)
    (result : s.lastResult = none) (pending : s.pending = none) (waiting : s.waiting = false) :
    s.Coherent lost :=
  ⟨entry, by simp [result], by simp [pending], by simp [waiting]⟩

theorem coherent_clear (s : State) : s.clear.Coherent lost :=
  coherent_of_idle (.inl rfl) rfl rfl rfl

theorem coherent_showError (p : Panel) (s : State) : (s.showError p).Coherent lost :=
  coherent_of_idle (.inl rfl) rfl rfl rfl

theorem Coherent.result_filled {s : State} (h : s.Coherent lost) (r : String)
    (result : s.lastResult = some r) : r ≠ "" := (h.result r result).1.ne_empty

theorem Coherent.clearEntry {s : State} (h : s.Coherent lost) : s.clearEntry.Coherent lost :=
  ⟨.inl rfl, h.result, h.pending, h.waiting⟩

theorem Coherent.clearExpression {s : State} (h : s.Coherent lost) :
    s.clearExpression.Coherent lost := by
  refine ⟨.inl rfl, ?_, h.pending, h.waiting⟩
  intro r result
  obtain ⟨legible, -, calm⟩ := h.result r result
  exact ⟨legible, rfl, calm⟩

theorem Coherent.freshen {s : State} (h : s.Coherent lost) : s.freshen.Coherent lost :=
  freshen_kept (coherent_clear s) h

theorem Coherent.typed {s : State} (h : s.Coherent lost) {text : String}
    (entered : Entered lost text) : (s.typed text).Coherent lost :=
  ⟨.inr entered, by simp [State.typed], h.pending, by simp [State.typed]⟩

theorem Coherent.digit {s : State} (h : s.Coherent lost) (p : Panel) (d : String) :
    (left (s.digit p d)).Coherent lost := by
  rcases s.digit_cases p d with same | fresh | ⟨c, text, digit, -, typed, origin⟩
  · rw [same]
    exact h
  · rw [fresh]
    exact h.freshen
  · rw [typed]
    apply h.freshen.typed
    rcases origin with rfl | rfl
    · exact entered_digit digit
    · rcases h.freshen.entry with empty | entered
      · rw [empty, String.empty_append]
        exact entered_digit digit
      · exact entered.digit digit

theorem Coherent.decimal {s : State} (h : s.Coherent lost) : s.decimal.Coherent lost := by
  obtain ⟨text, typed, origin⟩ := s.decimal_cases
  rw [typed]
  apply h.freshen.typed
  rcases origin with ⟨-, rfl⟩ | ⟨filled, ⟨rfl, -⟩ | ⟨rfl, pointless⟩⟩
  · exact entered_zero_point
  · exact h.freshen.entry.resolve_left filled
  · exact (h.freshen.entry.resolve_left filled).point pointless

theorem entered_shortened {text : String} (h : Entered lost text) :
    shortened text = "" ∨ Entered lost (shortened text) := by
  refine shortened_cases
    (P := fun cs => (∃ n k, Simple cs n k) ∨ lost ∧ namesNonfinite cs = true) ?_ ?_
  · rintro (⟨n, k, simple⟩ | ⟨-, named⟩)
    · exact absurd simple.accepts (by decide)
    · exact absurd named (by decide)
  · rcases h with ⟨n, k, simple⟩ | ⟨gone, named⟩
    · rcases simple.dropLast with ⟨n', k', shorter, -⟩ | lone
      · exact .inl (.inl ⟨n', k', shorter⟩)
      · exact .inr lone
    · exact (namesNonfinite_dropLast named).imp_left fun named => .inr ⟨gone, named⟩

theorem Coherent.backspace {s : State} (h : s.Coherent lost) : s.backspace.Coherent lost := by
  rcases s.backspace_cases with ⟨filled, back⟩ | ⟨-, some, back⟩ | ⟨-, -, back⟩
  · rw [back]
    exact ⟨entered_shortened (h.entry.resolve_left filled), h.result, h.pending, h.waiting⟩
  · rw [back]
    refine ⟨h.entry, ?_, h.pending, h.waiting⟩
    intro r result
    exact absurd (h.result r result).2.1 some
  · rw [back]
    exact h

theorem Coherent.wrap {s : State} (h : s.Coherent lost) (some : s.tokens ≠ []) (p : Panel)
    (before wrapped : List Token) : (s.wrap p before wrapped).Coherent lost := by
  rcases s.wrap_cases p before wrapped with ⟨x, -, -, same⟩ | ⟨-, same⟩
  · rw [same]
    refine ⟨h.entry, ?_, h.pending, h.waiting⟩
    intro r result
    exact absurd (h.result r result).2.1 some
  · rw [same]
    exact coherent_showError p s

theorem Coherent.replace {s : State} (h : s.Coherent lost) {before : List Token} {x y : Binary64}
    (operand : s.operand = .value before x) (p : Panel) (finite : y.isFinite = false → lost) :
    (s.replace p before y).Coherent lost := by
  refine ⟨.inr (entered_plain finite), ?_, h.pending, h.waiting⟩
  intro r result
  obtain ⟨legible, empty, calm⟩ := h.result r result
  exact ⟨legible, operand_value_empty operand empty, calm⟩

theorem Coherent.percent {s : State} (h : s.Coherent lost) (p : Panel)
    (spoils : s.Spoils .percent → lost) : (s.percent p).Coherent lost := by
  rcases s.percent_cases p with
    ⟨before, inner, operand, same⟩ | ⟨before, x, operand, same⟩ | ⟨-, same⟩
  · rw [same]
    exact h.wrap (operand_group_filled operand) p _ _
  · rw [same]
    apply h.replace operand p
    intro other
    apply spoils
    rw [x.isFinite_div_hundred] at other
    exact ⟨before, x, operand, other⟩
  · rw [same]
    exact h

theorem Coherent.unary {s : State} (h : s.Coherent lost) (p : Panel) (f : Function) :
    (s.unary p f).Coherent lost := by
  rcases s.unary_cases p f with ⟨before, inner, operand, same⟩ |
    ⟨before, x, operand, ⟨-, same⟩ | ⟨shown, same⟩⟩ | ⟨-, same⟩
  · rw [same]
    exact h.wrap (operand_group_filled operand) p _ _
  · rw [same]
    exact coherent_showError p s
  · rw [same]
    apply h.replace operand p
    intro other
    rw [isFinite_of_shown shown] at other
    cases other
  · rw [same]
    exact h

theorem Coherent.element {s : State} (h : s.Coherent lost) (p : Panel) (x : Element)
    (spoils : s.Spoils (.element x) → lost) : (left (s.element p x)).Coherent lost := by
  have fresh := h.freshen
  rcases element_cases p x h.result_filled with
    ⟨t, ts, display, -, -, placed, -⟩ | ⟨kept, -⟩ | ⟨r, resumed, refused, refuses, stopped⟩
  · rw [placed]
    exact ⟨.inl rfl, by simp, fresh.pending, fresh.waiting⟩
  · rw [kept]
    exact fresh
  · rw [stopped]
    obtain ⟨-, -, -, result⟩ := resumed?_eq_some resumed
    have named := (h.result r result).1.resolve_left (by simp [refused])
    exact ⟨.inr (.inr ⟨spoils refuses, namesNonfinite_of_namesInfinity named⟩), h.result,
      h.pending, h.waiting⟩

theorem Coherent.constant {s : State} (h : s.Coherent lost) (p : Panel) (c : Constant) :
    ((Effect.constant c).apply p s).Coherent lost := by
  have entered : Entered lost (plain c.value) :=
    entered_plain fun other => by rw [constant_isFinite] at other; cases other
  exact ⟨.inr entered, h.freshen.result, h.freshen.pending, by simp [Effect.apply]⟩

theorem Coherent.memoryRecall {s : State} (h : s.Coherent lost) (p : Panel) :
    (s.memoryRecall p).Coherent lost := by
  rcases s.memoryRecall_cases p with ⟨-, same⟩ | ⟨shown, same⟩
  · rw [same]
    exact coherent_showError p s
  · rw [same]
    have entered : Entered lost (plain s.memory) :=
      entered_plain fun other => by rw [isFinite_of_shown shown] at other; cases other
    exact ⟨.inr entered, h.freshen.result, h.freshen.pending, by simp⟩

/-- A pending operator has an operand in front of it. -/
theorem Coherent.begun {s : State} (h : s.Coherent lost) (q : BasicOperator)
    (pending : s.pending = some q) : ∃ a, s.first = some a := (h.pending q pending).2

theorem Coherent.folded {s : State} (h : s.Coherent lost) (calm : s.errorShown = false) (p : Panel)
    (q : BasicOperator) (a b : Binary64) (o : BasicOperator) :
    (s.folded p q a b o).Coherent lost := by
  unfold State.folded
  split
  · exact coherent_showError p s
  · exact ⟨.inl rfl, h.result, fun _ _ => ⟨calm, _, rfl⟩, fun _ => ⟨o, rfl⟩⟩

theorem Coherent.press {s : State} (h : s.Coherent lost) (p : Panel) (o : BasicOperator) :
    (s.pressBasic p o).Coherent lost := by
  rcases press_cases p o h.begun with ⟨-, same⟩ | ⟨q, pending, -, replaced⟩ |
    ⟨calm, x, -, ⟨-, entered⟩ | ⟨q, a, -, -, -, folded⟩⟩
  · rw [same]
    exact h
  · rw [replaced]
    exact ⟨h.entry, h.result, fun _ _ => h.pending q pending, fun _ => ⟨o, rfl⟩⟩
  · rw [entered]
    exact ⟨.inl rfl, h.result, fun _ _ => ⟨calm, _, rfl⟩, fun _ => ⟨o, rfl⟩⟩
  · rw [folded]
    exact h.folded calm p q a x o

theorem Coherent.conclude {s : State} (p : Panel) {o : Outcome}
    (finite : ∀ x, o = .value x → x.isFinite = true) : (s.conclude p o).Coherent lost := by
  cases o with
  | value x =>
    refine ⟨.inl rfl, ?_, by simp [State.conclude, clear], by simp [State.conclude, clear]⟩
    intro r result
    cases result
    exact ⟨legible_shown p (finite x rfl), rfl, rfl⟩
  | failure kind message raw => exact coherent_of_idle (.inl rfl) rfl rfl rfl

theorem Coherent.pop {s : State} (h : s.Coherent lost) (p : Panel) :
    (Effect.pop.apply p s).Coherent lost := by
  rcases s.pop_cases p with ⟨-, popped⟩ | ⟨-, -, popped⟩ | ⟨-, popped⟩
  · rw [popped]
    refine ⟨h.entry, ?_, h.pending, h.waiting⟩
    intro r result
    obtain ⟨legible, empty, calm⟩ := h.result r result
    exact ⟨legible, by simp [empty], calm⟩
  · rw [popped]
    exact ⟨.inl rfl, h.result, h.pending, h.waiting⟩
  · rw [popped]
    exact h

theorem Coherent.restore {s : State} (h : s.Coherent lost) (p : Panel)
    (expression result : String) : (left (s.restore p expression result)).Coherent lost := by
  rcases s.restore_cases p expression result with ⟨tokens, -, same⟩ | same
  · rw [same]
    exact coherent_of_idle (.inl rfl) rfl rfl rfl
  · rw [same]
    exact h

/-- **Every effect leaves a coherent calculator,** and one that spoils nothing leaves
what is being typed a numeral if it was one. -/
theorem Coherent.apply {s : State} (h : s.Coherent lost) (p : Panel) (e : Effect)
    (spoils : s.Spoils e → lost) : (e.apply p s).Coherent lost := by
  cases e with
  | rest => exact h
  | digit d => exact h.digit p d
  | decimal => exact h.decimal
  | backspace => exact h.backspace
  | percent => exact h.percent p spoils
  | unary f => exact h.unary p f
  | element x => exact h.element p x spoils
  | constant c => exact h.constant p c
  | press o => exact h.press p o
  | finish =>
    rcases s.finish_cases p with same | ⟨o, finite, concluded⟩
    · rw [same]
      exact h
    · rw [concluded]
      exact Coherent.conclude p finite
  | clear => exact coherent_clear s
  | clearEntry => exact h.clearEntry
  | clearExpression => exact h.clearExpression
  | pop => exact h.pop p
  | remember x => exact ⟨h.entry, h.result, h.pending, h.waiting⟩
  | recollect => exact h.memoryRecall p
  | angle a => exact ⟨h.entry, h.result, h.pending, h.waiting⟩
  | mode m =>
    rcases s.setMode_cases m with ⟨-, same⟩ | ⟨-, same⟩
    · rw [Effect.apply, same]
      exact h
    · rw [Effect.apply, same]
      exact coherent_of_idle (.inl rfl) rfl rfl rfl
  | restore expression result => exact h.restore p expression result

end State

/-- **Whatever it has been given, a calculator is coherent.** -/
theorem Desk.coherent_after (p : Panel) (angle : AngleMode) (mode : Mode)
    (history : Option Store) (now : Instant) (inputs : List Operation) :
    ((Desk.start p angle mode history now).after inputs).state.Coherent True :=
  Desk.state_after (fun _ kept e => kept.apply _ e fun _ => trivial)
    (State.coherent_of_idle (.inl rfl) rfl rfl rfl) inputs

end DeskCalculator.Calculator
