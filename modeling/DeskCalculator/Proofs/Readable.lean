import DeskCalculator.Proofs.Coherent

/-!
# When an expression can be read

The tokens of an expression, its line, its value and its last token are all there, unless
what is being typed is no numeral. `readable_iff_unspoiled`: two operations bring that
about, a percentage of a value that is not finite and an operator that cannot continue
from the last result, and a run is readable throughout just if it has neither.
-/

namespace DeskCalculator.Calculator
open Clock Display DeskCalculator.Expr History Number Numeral

namespace State

theorem Coherent.readable {s : State} (h : s.Coherent False) : s.Readable :=
  h.entry.imp_right fun entered => entered.accepts_or.resolve_right fun none => none.1

theorem Coherent.of_readable {s : State} (h : s.Coherent True) (readable : s.Readable) :
    s.Coherent False := by
  refine ⟨?_, h.result, h.pending, h.waiting⟩
  rcases readable with empty | accepted
  · exact .inl empty
  · exact h.entry.imp_right fun entered => entered.of_accepts accepted

theorem not_readable {s : State} (filled : s.entry ≠ "")
    (refused : accepts s.entry.toList = false) : ¬ s.Readable := by
  rintro (empty | accepted)
  · exact filled empty
  · rw [refused] at accepted
    cases accepted

theorem Coherent.not_readable_of_refuses {s : State} (h : s.Coherent True) (p : Panel)
    {x : Element} (refuses : s.Refuses (.element x)) : ¬ (left (s.element p x)).Readable := by
  rcases element_cases p x h.result_filled with
    ⟨-, -, -, -, other, -⟩ | ⟨-, other⟩ | ⟨r, resumed, refused, -, stopped⟩
  · exact absurd refuses other
  · exact absurd refuses other
  · obtain ⟨-, -, -, result⟩ := resumed?_eq_some resumed
    rw [stopped]
    exact not_readable (h.result_filled r result) refused

theorem not_readable_percent {s : State} (p : Panel) {before : List Token} {x : Binary64}
    (operand : s.operand = .value before x) (other : x.isFinite = false) :
    ¬ (s.percent p).Readable := by
  rw [← x.isFinite_div_hundred] at other
  have named := namesNonfinite_plain other
  have entered : Entered True (plain (x / .ofInt 100)) := .inr ⟨trivial, named⟩
  unfold State.percent
  rw [operand]
  exact not_readable entered.ne_empty (not_accepts_of_namesNonfinite named)

/-- An operation leaves the expression readable just if it does not spoil it. -/
theorem Coherent.readable_apply_iff {s : State} (h : s.Coherent True) (readable : s.Readable)
    (p : Panel) (e : Effect) : (e.apply p s).Readable ↔ ¬ s.Spoils e := by
  constructor
  · intro after spoils
    cases e with
    | percent =>
      obtain ⟨before, x, operand, other⟩ := spoils
      exact not_readable_percent p operand other after
    | element x => exact h.not_readable_of_refuses p spoils after
    | _ => exact spoils
  · intro unspoiled
    exact ((h.of_readable readable).apply p e unspoiled).readable

/-- What keeps the expression from being read: the text being typed. -/
def Unread (s : State) (f : Expr.Fault) : Prop := ¬ s.Readable ∧ f = .notNumeral s.entry

theorem currentTokens_error_iff (s : State) (f : Expr.Fault) :
    s.currentTokens = .error f ↔ s.Unread f := by
  by_cases readable : s.Readable
  · obtain ⟨ts, tokens⟩ := currentTokens_of_readable readable
    simp [tokens, Unread, readable]
  · simp [currentTokens_of_not_readable readable, Unread, readable, eq_comm]

theorem expressionLine_error_iff (s : State) (f : Expr.Fault) :
    s.expressionLine = .error f ↔ s.Unread f := by
  rw [← currentTokens_error_iff, expressionLine]
  cases s.currentTokens with
  | ok ts => simp [bind, Except.bind, pure, Except.pure]
  | error g => simp [bind, Except.bind]

theorem pop_error_iff (s : State) (f : Expr.Fault) :
    (∃ s', s.pop = .error ⟨f, s'⟩) ↔ s.Unread f := by
  rw [← currentTokens_error_iff, pop, currentTokens]
  split
  · simp
  · cases Token.ofNumeral s.entry with
    | ok t => simp [bind, Except.bind, pure, Except.pure]
    | error g => simp [bind, Except.bind]

end State

namespace Desk

theorem evaluate_error_iff (d : Desk) (f : DeskFault) :
    (d.perform .evaluate).1 = .error f ↔ ∃ g, d.state.Unread g ∧ f = .expression g := by
  simp only [perform, evaluated, ← State.currentTokens_error_iff]
  cases d.state.currentTokens with
  | ok ts => simp
  | error g => simp [eq_comm]

theorem pop_error_iff (d : Desk) (f : DeskFault) :
    (d.perform .pop).1 = .error f ↔ ∃ g, d.state.Unread g ∧ f = .expression g := by
  simp only [perform, Desk.pop, ← State.pop_error_iff]
  cases d.state.pop with
  | ok popped => simp
  | error h =>
    obtain ⟨g, s⟩ := h
    simp [eq_comm]

end Desk

/-- **A run is readable throughout just if no input spoils what is being typed.** What
is typed and is no numeral then starts as the name of an infinity or of nan, and it is
this text that the tokens, the line, the value and the last token fail with. -/
theorem readable_iff_unspoiled (p : Panel) (angle : AngleMode) (mode : Mode)
    (history : Option Store) (now : Instant) (inputs : List Operation) :
    let d (inputs : List Operation) := (Desk.start p angle mode history now).after inputs
    ((∀ before, before <+: inputs → (d before).state.Readable) ↔
      ∀ before x, before ++ [x] <+: inputs → ¬ (d before).state.Spoils ((d before).effect x)) ∧
    (¬ (d inputs).state.Readable → namesNonfinite (d inputs).state.entry.toList = true) ∧
    (∀ f, (d inputs).state.currentTokens = .error f ↔ (d inputs).state.Unread f) ∧
    (∀ f, (d inputs).state.expressionLine = .error f ↔ (d inputs).state.Unread f) ∧
    (∀ f, ((d inputs).perform .evaluate).1 = .error f ↔
      ∃ g, (d inputs).state.Unread g ∧ f = .expression g) ∧
    ∀ f, ((d inputs).perform .pop).1 = .error f ↔
      ∃ g, (d inputs).state.Unread g ∧ f = .expression g := by
  intro d
  have coherent (inputs : List Operation) : (d inputs).state.Coherent True :=
    Desk.coherent_after p angle mode history now inputs
  refine ⟨?_, ?_, ?_, ?_, ?_, ?_⟩
  · exact Desk.kept_iff coherent (fun s h readable e => h.readable_apply_iff readable p e)
      (.inl rfl) inputs
  · intro unread
    obtain ⟨filled, refused⟩ := not_or.mp unread
    exact (((coherent inputs).entry.resolve_left filled).accepts_or.resolve_left refused).2
  · exact (d inputs).state.currentTokens_error_iff
  · exact (d inputs).state.expressionLine_error_iff
  · exact (d inputs).evaluate_error_iff
  · exact (d inputs).pop_error_iff

/-- A percentage of a number too large for a double is an infinity, which is entered. -/
theorem not_readable_percentage :
    let d := (Desk.standard none ⟨0⟩).after [.text "1e999", .percent]
    ¬ d.state.Readable ∧ d.state.expressionLine = .error (.notNumeral "Infinity") := by
  decide +kernel

end DeskCalculator.Calculator
