import DeskCalculator.Proofs.Coherent

/-!
# What a failure leaves

An operation that fails leaves the state as it was, with two exceptions that `remnant?`
names: a stray text for which an error has already been cleared away, and an operator
whose left operand has become what is being typed before it is refused.
`wrecks_iff_remnant` says that there is no third.
-/

namespace DeskCalculator.Calculator
open Clock Display DeskCalculator.Expr History Number Numeral

namespace State

/-- The other state that an operation leaves as it fails, if it does so. -/
def remnant? (s : State) : Effect → Option State
  | .element (.stray _) => if s.errorShown then some s.clear else none
  | .element (.token (.operator _)) =>
    match s.resumed? with
    | some r => if accepts r.toList then none else some { s with entry := r }
    | none => none
  | _ => none

variable {s s' : State}

theorem remnant?_of_not_resumed (h : s.resumed? = none) (t : Token) :
    s.remnant? (.element (.token t)) = none := by
  cases t with
  | operator o => simp only [remnant?, h]
  | _ => rfl

theorem remnant?_of_resumed {r : String} (h : s.resumed? = some r) (o : Operator) :
    s.remnant? (.element (.token (.operator o))) =
      if accepts r.toList then none else some { s with entry := r } := by
  simp only [remnant?, h]

theorem remnant?_memoryEffect (s : State) (reckon : Binary64 → Binary64 → Binary64) :
    s.remnant? (s.memoryEffect reckon) = none := by
  unfold memoryEffect
  split <;> rfl

/-- A fault leaves another state than there was. -/
def Wrecks (s : State) (r : Except Halt State) (s' : State) : Prop :=
  ∃ f, r = .error ⟨f, s'⟩ ∧ s' ≠ s

theorem not_wrecks_ok (s s' after : State) : ¬ s.Wrecks (.ok after) s' := by
  rintro ⟨f, halted, -⟩
  cases halted

theorem not_wrecks_same (s s' : State) (f : Expr.Fault) : ¬ s.Wrecks (.error ⟨f, s⟩) s' := by
  rintro ⟨g, halted, other⟩
  cases halted
  exact other rfl

theorem not_wrecks_digit (p : Panel) (d : String) (s s' : State) : ¬ s.Wrecks (s.digit p d) s' := by
  unfold State.digit
  split
  · exact s.not_wrecks_same s' _
  · dsimp only
    split <;> exact s.not_wrecks_ok s' _

theorem not_wrecks_restore (p : Panel) (expression result : String) (s s' : State) :
    ¬ s.Wrecks (s.restore p expression result) s' := by
  unfold State.restore
  split
  · exact s.not_wrecks_ok s' _
  · exact s.not_wrecks_same s' _

theorem wrecks_stray_iff (p : Panel) (text : String) :
    s.Wrecks (s.element p (.stray text)) s' ↔ s.remnant? (.element (.stray text)) = some s' := by
  have halted : s.element p (.stray text) = .error ⟨.unsupportedToken text, s.freshen⟩ := rfl
  rw [halted]
  by_cases shown : s.errorShown = true
  · have cleared : s.freshen = s.clear := if_pos shown
    rw [cleared, remnant?, if_pos shown]
    constructor
    · rintro ⟨f, same, -⟩
      cases same
      rfl
    · intro same
      cases same
      refine ⟨_, rfl, ?_⟩
      intro kept
      rw [← kept] at shown
      cases shown
  · rw [freshen_of_calm (Bool.eq_false_iff.mpr shown), remnant?, if_neg shown]
    exact iff_of_false (s.not_wrecks_same s' _) (by simp)

/-- A token is refused for the text in front of it, which is left there. -/
theorem element_of_readable (p : Panel) {t : Token} (h : (s.freshen.behind t).Readable) :
    ∃ after, s.element p (.token t) = .ok after := by
  obtain ⟨ts, tokens⟩ := currentTokens_of_readable h
  obtain ⟨display, placed, -⟩ := place_token p t tokens
  rw [State.element, placed]
  exact ⟨_, rfl⟩

theorem element_of_unread (p : Panel) {t : Token} (h : ¬ (s.freshen.behind t).Readable) :
    ∃ f, s.element p (.token t) = .error ⟨f, s.freshen.behind t⟩ := by
  rw [State.element, place_of_error p t (currentTokens_of_not_readable h)]
  exact ⟨_, rfl⟩

/-- What is being typed is never refused for an error, which would have cleared it. -/
theorem freshen_of_unread (h : ¬ s.freshen.Readable) : s.freshen = s := by
  by_cases shown : s.errorShown = true
  · have cleared : s.freshen = s.clear := if_pos shown
    rw [cleared] at h
    exact absurd (.inl rfl) h
  · exact freshen_of_calm (Bool.eq_false_iff.mpr shown)

theorem wrecks_token_iff (legible : ∀ r, s.lastResult = some r → r ≠ "") (p : Panel) (t : Token) :
    s.Wrecks (s.element p (.token t)) s' ↔ s.remnant? (.element (.token t)) = some s' := by
  rcases s.behind_cases t with ⟨same, fresh⟩ | ⟨o, r, rfl, resumed, same⟩
  · have whole : s.remnant? (.element (.token t)) = none := by
      cases t with
      | operator o => exact remnant?_of_not_resumed (fresh o rfl) _
      | _ => rfl
    rw [whole]
    refine iff_of_false ?_ (by simp)
    by_cases readable : (s.freshen.behind t).Readable
    · obtain ⟨after, placed⟩ := element_of_readable p readable
      rw [placed]
      exact s.not_wrecks_ok s' after
    · obtain ⟨f, halted⟩ := element_of_unread p readable
      rw [same] at readable
      rw [halted, same, freshen_of_unread readable]
      exact s.not_wrecks_same s' f
  · obtain ⟨-, -, empty, result⟩ := resumed?_eq_some resumed
    have filled := legible r result
    rw [remnant?_of_resumed resumed]
    by_cases accepted : accepts r.toList = true
    · have readable : (s.freshen.behind (.operator o)).Readable := by
        rw [same]
        exact .inr accepted
      obtain ⟨after, placed⟩ := element_of_readable p readable
      rw [placed, if_pos accepted]
      exact iff_of_false (s.not_wrecks_ok s' after) (by simp)
    · have unread : ¬ (s.freshen.behind (.operator o)).Readable := by
        rw [same]
        rintro (none | accepted')
        · exact filled none
        · exact accepted accepted'
      obtain ⟨f, halted⟩ := element_of_unread p unread
      rw [halted, same, if_neg accepted]
      constructor
      · rintro ⟨g, left, -⟩
        cases left
        rfl
      · intro left
        cases left
        refine ⟨f, rfl, ?_⟩
        intro kept
        exact filled ((congrArg State.entry kept).trans empty)

theorem wrecks_element_iff (legible : ∀ r, s.lastResult = some r → r ≠ "") (p : Panel)
    (x : Element) : s.Wrecks (s.element p x) s' ↔ s.remnant? (.element x) = some s' := by
  cases x with
  | stray text => exact wrecks_stray_iff p text
  | token t => exact wrecks_token_iff legible p t

end State

namespace Desk

/-- An operation fails and leaves another state than there was. -/
def Wrecks (d : Desk) (r : Result) (s : State) : Prop :=
  (∃ f, r.1 = .error f) ∧ r.2.state = s ∧ s ≠ d.state

variable {d : Desk} {s : State}

theorem not_wrecks_ok {r : Result} {reply : Reply} (h : r.1 = .ok reply) : ¬ d.Wrecks r s := by
  rintro ⟨⟨f, failed⟩, -⟩
  rw [h] at failed
  cases failed

theorem not_wrecks_same {r : Result} (h : r.2.state = d.state) : ¬ d.Wrecks r s := by
  rintro ⟨-, left, other⟩
  exact other (left.symm.trans h)

theorem wrecks_settle_iff (r : Except Halt State) :
    d.Wrecks (d.settle r) s ↔ d.state.Wrecks r s := by
  cases r with
  | ok after => exact iff_of_false (not_wrecks_ok rfl) (d.state.not_wrecks_ok s after)
  | error h =>
    constructor
    · rintro ⟨-, left, other⟩
      exact ⟨h.fault, by rw [← left]; rfl, other⟩
    · rintro ⟨f, halted, other⟩
      cases halted
      exact ⟨⟨_, rfl⟩, rfl, other⟩

/-- A calculation is recorded before the state is changed. -/
theorem not_wrecks_equals (d : Desk) (s : State) : ¬ d.Wrecks d.equals s := by
  have kept := d.yields_finish
  unfold finishEffect at kept
  cases answer : d.equals.1 with
  | ok reply => exact not_wrecks_ok answer
  | error f =>
    rw [answer] at kept
    exact not_wrecks_same kept.2

theorem remnant?_finishEffect (d : Desk) : d.state.remnant? d.finishEffect = none := by
  unfold finishEffect
  split <;> rfl

theorem not_wrecks_silent {r : Result} (h : ¬ d.Wrecks r s) : ¬ d.Wrecks (silent r) s := by
  obtain ⟨answer, after⟩ := r
  cases answer with
  | ok reply => exact not_wrecks_ok rfl
  | error f => exact h

theorem not_wrecks_pop (d : Desk) (s : State) : ¬ d.Wrecks d.pop s := by
  unfold pop State.pop
  split
  · exact not_wrecks_ok rfl
  · rename_i h popped
    split at popped
    · cases popped
    · split at popped
      · cases popped
      · cases popped
        exact not_wrecks_same rfl

theorem remnant?_recallEffect (d : Desk) (i : Int) : d.state.remnant? (d.recallEffect i) = none := by
  unfold recallEffect
  split
  · rfl
  · split
    · rfl
    · split <;> rfl

theorem not_wrecks_recall (d : Desk) (i : Int) (s : State) : ¬ d.Wrecks (d.recallIndex i) s := by
  unfold recallIndex
  split
  · exact not_wrecks_same rfl
  · split
    · exact not_wrecks_same rfl
    · split
      · rw [restore, wrecks_settle_iff]
        exact d.state.not_wrecks_restore d.panel _ _ s
      · exact not_wrecks_same rfl

section Keys
variable (legible : ∀ r, d.state.lastResult = some r → r ≠ "")
include legible

theorem wrecks_element_iff (x : Element) :
    d.Wrecks (d.settle (d.state.element d.panel x)) s ↔
      d.state.remnant? (.element x) = some s := by
  rw [wrecks_settle_iff]
  exact State.wrecks_element_iff legible d.panel x

theorem wrecks_key_iff (t : Token) :
    d.Wrecks (d.settle (d.state.expressionKey d.panel t)) s ↔
      d.state.remnant? (d.state.keyEffect t) = some s := by
  unfold State.keyEffect State.expressionKey
  cases d.state.mode with
  | advanced => exact wrecks_element_iff legible (.token t)
  | basic => exact iff_of_false (not_wrecks_ok rfl) (by simp [State.remnant?])

theorem wrecks_press_iff (o : BasicOperator) :
    d.Wrecks (d.settle (d.state.press d.panel o)) s ↔
      d.state.remnant? (d.state.pressEffect o) = some s := by
  unfold State.pressEffect State.press
  cases d.state.mode with
  | advanced => exact wrecks_element_iff legible (.token (.operator o.symbol))
  | basic => exact iff_of_false (not_wrecks_ok rfl) (by simp [State.remnant?])

theorem wrecks_constant_iff (c : Constant) :
    d.Wrecks (d.settle (d.state.constant d.panel c)) s ↔
      d.state.remnant? (d.state.constantEffect c) = some s := by
  have same := d.state.freshen_mode
  unfold State.constantEffect State.constant
  cases mode : d.state.mode with
  | advanced =>
    rw [mode] at same
    have again : d.state.freshen.element d.panel (.token (.constant c)) =
        d.state.element d.panel (.token (.constant c)) := by
      rw [State.element, State.element, State.freshen_freshen]
    simp only [same, again]
    exact wrecks_element_iff legible (.token (.constant c))
  | basic =>
    rw [mode] at same
    simp only [same]
    exact iff_of_false (not_wrecks_ok rfl) (by simp [State.remnant?])

theorem wrecks_command_iff (argument : Option String) (c : Command) :
    d.Wrecks (d.command argument c) s ↔
      d.state.remnant? (d.commandEffect argument c) = some s := by
  cases c with
  | digit =>
    cases argument with
    | none => exact iff_of_false (not_wrecks_same rfl) (by simp [commandEffect, State.remnant?])
    | some a =>
      refine iff_of_false ?_ (by simp [commandEffect, State.remnant?])
      rw [command, wrecks_settle_iff]
      exact d.state.not_wrecks_digit d.panel a s
  | parenOpen => exact wrecks_key_iff legible .opening
  | parenClose => exact wrecks_key_iff legible .closing
  | add => exact wrecks_press_iff legible .add
  | subtract => exact wrecks_press_iff legible .subtract
  | multiply => exact wrecks_press_iff legible .multiply
  | divide => exact wrecks_press_iff legible .divide
  | power => exact wrecks_key_iff legible (.operator .power)
  | sin => exact wrecks_key_iff legible (.function .sin)
  | cos => exact wrecks_key_iff legible (.function .cos)
  | tan => exact wrecks_key_iff legible (.function .tan)
  | ln => exact wrecks_key_iff legible (.function .ln)
  | log => exact wrecks_key_iff legible (.function .log)
  | pi => exact wrecks_constant_iff legible .pi
  | e => exact wrecks_constant_iff legible .e
  | equals =>
    exact iff_of_false (not_wrecks_silent (d.not_wrecks_equals s)) (by
      simp [commandEffect, remnant?_finishEffect])
  | memoryPlus =>
    exact iff_of_false (not_wrecks_ok rfl) (by simp [commandEffect, State.remnant?_memoryEffect])
  | memoryMinus =>
    exact iff_of_false (not_wrecks_ok rfl) (by simp [commandEffect, State.remnant?_memoryEffect])
  | _ => exact iff_of_false (not_wrecks_ok rfl) (by simp [commandEffect, State.remnant?])

theorem wrecks_perform_iff (x : Operation) :
    d.Wrecks (d.perform x) s ↔ d.state.remnant? (d.effect x) = some s := by
  cases x with
  | key name =>
    cases bound : ofKey? name with
    | none =>
      simp only [effect, perform, key, bound]
      exact iff_of_false (not_wrecks_ok rfl) (by simp [State.remnant?])
    | some press =>
      obtain ⟨c, argument⟩ := press
      have same := wrecks_command_iff legible (s := s) argument c
      simp only [effect, perform, key, bound]
      cases result : d.command argument c with
      | mk answer e =>
        rw [result] at same
        cases answer with
        | error f => exact same
        | ok reply =>
          rw [← same]
          exact iff_of_false (not_wrecks_ok rfl) (not_wrecks_ok rfl)
  | command c argument => exact wrecks_command_iff legible argument c
  | text symbol =>
    simp only [effect, perform, State.text]
    cases Token.parse symbol with
    | ok t => exact wrecks_element_iff legible (.token t)
    | error f => exact iff_of_false (not_wrecks_same rfl) (by simp [State.remnant?])
  | element x => exact wrecks_element_iff legible x
  | digit a =>
    refine iff_of_false ?_ (by simp [effect, State.remnant?])
    rw [perform, wrecks_settle_iff]
    exact d.state.not_wrecks_digit d.panel a s
  | constant c => exact wrecks_constant_iff legible c
  | operator o => exact wrecks_press_iff legible o
  | equals =>
    exact iff_of_false (d.not_wrecks_equals s) (by simp [effect, remnant?_finishEffect])
  | evaluate =>
    refine iff_of_false (not_wrecks_same ?_) (by simp [effect, State.remnant?])
    simp only [perform, evaluated]
    split <;> rfl
  | pop => exact iff_of_false (d.not_wrecks_pop s) (by simp [effect, State.remnant?])
  | memoryAdd =>
    exact iff_of_false (not_wrecks_ok rfl) (by simp [effect, State.remnant?_memoryEffect])
  | memorySubtract =>
    exact iff_of_false (not_wrecks_ok rfl) (by simp [effect, State.remnant?_memoryEffect])
  | history limit =>
    refine iff_of_false (not_wrecks_same ?_) (by simp [effect, State.remnant?])
    simp only [perform]
    split <;> rfl
  | «recall» expression result =>
    refine iff_of_false ?_ (by simp [effect, State.remnant?])
    rw [perform, restore, wrecks_settle_iff]
    exact d.state.not_wrecks_restore d.panel expression result s
  | recallIndex i => exact iff_of_false (d.not_wrecks_recall i s) (by simp [effect, d.remnant?_recallEffect i])
  | _ => exact iff_of_false (not_wrecks_ok rfl) (by simp [effect, State.remnant?])

end Keys

end Desk

/-- **A failure leaves the state as it was, except where a remnant is left of it:** of a
calculator that has shown an error, when it is given a stray text, and of one that has shown
a result from which an operator cannot continue. -/
theorem wrecks_iff_remnant (p : Panel) (angle : AngleMode) (mode : Mode) (history : Option Store)
    (now : Instant) (inputs : List Operation) (x : Operation) (s : State) :
    let d := (Desk.start p angle mode history now).after inputs
    ((∃ f, (d.perform x).1 = .error f) ∧ (d.perform x).2.state = s ∧ s ≠ d.state) ↔
      d.state.remnant? (d.effect x) = some s := by
  intro d
  have coherent : d.state.Coherent True := Desk.coherent_after p angle mode history now inputs
  exact Desk.wrecks_perform_iff coherent.result_filled x

/-- An error is on the display, and a text that is no token is refused. The error has gone. -/
theorem wrecks_stray :
    let d := (Desk.standard none ⟨0⟩).after [.digit "1", .operator .divide, .digit "0", .equals]
    let r := d.perform (.element (.stray "foo"))
    r.1 = .error (.expression (.unsupportedToken "foo")) ∧ d.state.display = "Error" ∧
      r.2.state.display = "0" := by
  decide +kernel

end DeskCalculator.Calculator
