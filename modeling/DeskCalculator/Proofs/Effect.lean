import DeskCalculator.Proofs.Entering

/-!
# What an input does to the state

Keys, commands and operations are many names for few things. An `Effect` is one of
these, with the mode already looked at, and `yields_perform` says that an input does
nothing else to the state. `kept_iff` carries a condition from steps to runs: it holds
all along just if no step breaks it.
-/

namespace DeskCalculator.Calculator
open Clock Display DeskCalculator.Expr History Number

inductive Effect where
  | rest
  | digit (d : String)
  | decimal
  | backspace
  | percent
  | unary (f : Function)
  | element (x : Element)
  /-- The value of a constant is entered in basic mode. -/
  | constant (c : Constant)
  /-- An operator is pressed in basic mode. -/
  | press (o : BasicOperator)
  | finish
  | clear
  | clearEntry
  | clearExpression
  | pop
  | remember (x : Binary64)
  | recollect
  | angle (a : AngleMode)
  | mode (m : Mode)
  | restore (expression result : String)

/-- The state after a success, and the one a failure leaves. -/
def left : Except Halt State → State
  | .ok s => s
  | .error h => h.left

def Effect.apply (p : Panel) : Effect → State → State
  | .rest, s => s
  | .digit d, s => left (s.digit p d)
  | .decimal, s => s.decimal
  | .backspace, s => s.backspace
  | .percent, s => s.percent p
  | .unary f, s => s.unary p f
  | .element x, s => left (s.element p x)
  | .constant c, s => { s.freshen with
      entry := Numeral.plain c.value
      display := p.shown (some c.value)
      waiting := false }
  | .press o, s => s.pressBasic p o
  | .finish, s =>
    match s.calculation with
    | .ok (some c) => s.conclude p c.outcome
    | _ => s
  | .clear, s => s.clear
  | .clearEntry, s => s.clearEntry
  | .clearExpression, s => s.clearExpression
  | .pop, s =>
    match s.pop with
    | .ok (_, s) => s
    | .error h => h.left
  | .remember x, s => { s with memory := x }
  | .recollect, s => s.memoryRecall p
  | .angle a, s => { s with angle := a }
  | .mode m, s => s.setMode m
  | .restore expression result, s => left (s.restore p expression result)

namespace State

/-- Only an expression takes tokens from keys. -/
def keyEffect (s : State) (t : Token) : Effect :=
  match s.mode with
  | .advanced => .element (.token t)
  | .basic => .rest

def pressEffect (s : State) (o : BasicOperator) : Effect :=
  match s.mode with
  | .advanced => .element (.token (.operator o.symbol))
  | .basic => .press o

def constantEffect (s : State) (c : Constant) : Effect :=
  match s.mode with
  | .advanced => .element (.token (.constant c))
  | .basic => .constant c

/-- The memory takes a new value, unless there is none to reckon with. -/
def memoryEffect (s : State) (reckon : Binary64 → Binary64 → Binary64) : Effect :=
  match s.currentValue? with
  | some x => .remember (reckon s.memory x)
  | none => .rest

end State

namespace Desk

/-- Nothing is finished if the history fails in a way that is not passed over. -/
def finishEffect (d : Desk) : Effect :=
  match d.equals.1 with
  | .ok _ => .finish
  | .error _ => .rest

def recallEffect (d : Desk) (i : Int) : Effect :=
  match d.recent none with
  | .error _ => .rest
  | .ok es =>
    if !isStorable i then .rest
    else match entryAt? es i with
    | some e => .restore e.expression e.result
    | none => .rest

def commandEffect (d : Desk) (argument : Option String) : Command → Effect
  | .digit =>
    match argument with
    | some a => .digit a
    | none => .rest
  | .decimal => .decimal
  | .clear => .clear
  | .clearEntry => .clearEntry
  | .backspace => .backspace
  | .percent => .percent
  | .parenOpen => d.state.keyEffect .opening
  | .parenClose => d.state.keyEffect .closing
  | .add => d.state.pressEffect .add
  | .subtract => d.state.pressEffect .subtract
  | .multiply => d.state.pressEffect .multiply
  | .divide => d.state.pressEffect .divide
  | .power => d.state.keyEffect (.operator .power)
  | .equals => d.finishEffect
  | .negate => .unary .neg
  | .sqrt => .unary .sqrt
  | .square => .unary .square
  | .reciprocal => .unary .reciprocal
  | .sin => d.state.keyEffect (.function .sin)
  | .cos => d.state.keyEffect (.function .cos)
  | .tan => d.state.keyEffect (.function .tan)
  | .ln => d.state.keyEffect (.function .ln)
  | .log => d.state.keyEffect (.function .log)
  | .pi => d.state.constantEffect .pi
  | .e => d.state.constantEffect .e
  | .memoryClear => .remember .zero
  | .memoryRecall => .recollect
  | .memoryPlus => d.state.memoryEffect (· + ·)
  | .memoryMinus => d.state.memoryEffect (· - ·)
  | .angleToggle => .angle d.state.toggleAngle.angle

def effect (d : Desk) : Operation → Effect
  | .key name =>
    match ofKey? name with
    | some (c, argument) => d.commandEffect argument c
    | none => .rest
  | .command c argument => d.commandEffect argument c
  | .text symbol =>
    match Token.parse symbol with
    | .ok t => .element (.token t)
    | .error _ => .rest
  | .element x => .element x
  | .digit a => .digit a
  | .decimal => .decimal
  | .backspace => .backspace
  | .percent => .percent
  | .unary f => .unary f
  | .constant c => d.state.constantEffect c
  | .operator o => d.state.pressEffect o
  | .equals => d.finishEffect
  | .evaluate => .rest
  | .clear => .clear
  | .clearEntry => .clearEntry
  | .clearExpression => .clearExpression
  | .pop => .pop
  | .memoryClear => .remember .zero
  | .memoryRecall => .recollect
  | .memoryAdd => d.state.memoryEffect (· + ·)
  | .memorySubtract => d.state.memoryEffect (· - ·)
  | .angle a => .angle a
  | .mode m => .mode m
  | .toggleAngle => .angle d.state.toggleAngle.angle
  | .history _ => .rest
  | .recall expression result => .restore expression result
  | .recallIndex i => d.recallEffect i
  | .clock _ => .rest

/-- The panel stays, and the state is the given one. -/
def Yields (d : Desk) (s : State) (e : Desk) : Prop := e.panel = d.panel ∧ e.state = s

theorem yields_settle (d : Desk) (r : Except Halt State) : d.Yields (left r) (d.settle r).2 := by
  cases r with
  | ok s => exact ⟨rfl, rfl⟩
  | error h => exact ⟨rfl, rfl⟩

theorem yields_put (d : Desk) (s : State) : d.Yields s (d.put s) := ⟨rfl, rfl⟩

theorem yields_record (d : Desk) (expression result : String) :
    d.Yields d.state (d.record expression result).2 := by
  unfold record
  split
  · exact ⟨rfl, rfl⟩
  · dsimp only
    split <;> exact ⟨rfl, rfl⟩

theorem yields_finish (d : Desk) : d.Yields (d.finishEffect.apply d.panel d.state) d.equals.2 := by
  unfold finishEffect equals
  cases calculated : d.state.calculation with
  | error f => exact ⟨rfl, rfl⟩
  | ok c =>
    cases c with
    | none =>
      refine ⟨rfl, ?_⟩
      simp only [Effect.apply, calculated]
    | some c =>
      have kept := d.yields_record c.expression (d.panel.render c.outcome)
      dsimp only
      cases recorded : d.record c.expression (d.panel.render c.outcome) with
      | mk answer e =>
        rw [recorded] at kept
        cases answer with
        | error f => exact kept
        | ok _ =>
          obtain ⟨panel, state⟩ := kept
          refine ⟨panel, ?_⟩
          dsimp only at panel state
          simp only [Effect.apply, calculated, put, panel, state]

theorem silent_snd (r : Result) : (silent r).2 = r.2 := by
  obtain ⟨answer, d⟩ := r
  cases answer <;> rfl

theorem yields_key (d : Desk) (t : Token) :
    d.Yields ((d.state.keyEffect t).apply d.panel d.state)
      (d.settle (d.state.expressionKey d.panel t)).2 := by
  unfold State.keyEffect State.expressionKey
  cases d.state.mode with
  | advanced => exact d.yields_settle _
  | basic => exact d.yields_settle (.ok d.state)

theorem yields_press (d : Desk) (o : BasicOperator) :
    d.Yields ((d.state.pressEffect o).apply d.panel d.state)
      (d.settle (d.state.press d.panel o)).2 := by
  unfold State.pressEffect State.press
  cases d.state.mode with
  | advanced => exact d.yields_settle _
  | basic => exact d.yields_settle (.ok (d.state.pressBasic d.panel o))

theorem yields_constant (d : Desk) (c : Constant) :
    d.Yields ((d.state.constantEffect c).apply d.panel d.state)
      (d.settle (d.state.constant d.panel c)).2 := by
  have kept := d.yields_settle (d.state.constant d.panel c)
  have entered : left (d.state.constant d.panel c) =
      (d.state.constantEffect c).apply d.panel d.state := by
    have same := d.state.freshen_mode
    cases mode : d.state.mode with
    | advanced =>
      rw [mode] at same
      simp only [State.constantEffect, State.constant, Effect.apply, State.element, same, mode,
        State.freshen_freshen]
    | basic =>
      rw [mode] at same
      simp only [State.constantEffect, State.constant, Effect.apply, same, mode, left]
  rw [entered] at kept
  exact kept

theorem yields_memory (d : Desk) (reckon : Binary64 → Binary64 → Binary64) :
    (d.state.memoryEffect reckon).apply d.panel d.state =
      match d.state.currentValue? with
      | some x => { d.state with memory := reckon d.state.memory x }
      | none => d.state := by
  unfold State.memoryEffect
  split <;> rfl

theorem yields_command (d : Desk) (argument : Option String) (c : Command) :
    d.Yields ((d.commandEffect argument c).apply d.panel d.state) (d.command argument c).2 := by
  cases c with
  | digit =>
    cases argument with
    | none => exact ⟨rfl, rfl⟩
    | some a => exact d.yields_settle _
  | parenOpen => exact d.yields_key .opening
  | parenClose => exact d.yields_key .closing
  | add => exact d.yields_press .add
  | subtract => exact d.yields_press .subtract
  | multiply => exact d.yields_press .multiply
  | divide => exact d.yields_press .divide
  | power => exact d.yields_key (.operator .power)
  | sin => exact d.yields_key (.function .sin)
  | cos => exact d.yields_key (.function .cos)
  | tan => exact d.yields_key (.function .tan)
  | ln => exact d.yields_key (.function .ln)
  | log => exact d.yields_key (.function .log)
  | pi => exact d.yields_constant .pi
  | e => exact d.yields_constant .e
  | equals =>
    rw [Desk.command, silent_snd]
    exact d.yields_finish
  | memoryPlus =>
    rw [commandEffect, yields_memory]
    exact d.yields_put _
  | memoryMinus =>
    rw [commandEffect, yields_memory]
    exact d.yields_put _
  | _ => exact ⟨rfl, rfl⟩

theorem yields_recall (d : Desk) (i : Int) :
    d.Yields ((d.recallEffect i).apply d.panel d.state) (d.recallIndex i).2 := by
  unfold recallEffect recallIndex
  cases d.recent none with
  | error f => exact d.yields_put d.state
  | ok es =>
    dsimp only
    cases isStorable i with
    | false => exact d.yields_put d.state
    | true =>
      cases entryAt? es i with
      | none => exact d.yields_put d.state
      | some e => exact d.yields_settle _

/-- **Nothing but the effect of an input reaches the state.** -/
theorem yields_perform (d : Desk) (x : Operation) :
    d.Yields ((d.effect x).apply d.panel d.state) (d.perform x).2 := by
  cases x with
  | key name =>
    cases bound : ofKey? name with
    | none =>
      simp only [effect, perform, key, bound]
      exact d.yields_put d.state
    | some press =>
      obtain ⟨c, argument⟩ := press
      have kept := d.yields_command argument c
      simp only [effect, perform, key, bound]
      cases result : d.command argument c with
      | mk answer e =>
        rw [result] at kept
        cases answer <;> exact kept
  | command c argument => exact d.yields_command argument c
  | text symbol =>
    simp only [effect, perform, State.text]
    cases Token.parse symbol with
    | ok t => exact d.yields_settle _
    | error f => exact d.yields_put d.state
  | element x => exact d.yields_settle _
  | digit a => exact d.yields_settle _
  | constant c => exact d.yields_constant c
  | operator o => exact d.yields_press o
  | equals => exact d.yields_finish
  | evaluate =>
    simp only [effect, perform, evaluated]
    split <;> exact d.yields_put d.state
  | pop =>
    simp only [effect, perform, pop, Effect.apply]
    cases d.state.pop <;> exact d.yields_put _
  | memoryAdd =>
    rw [effect, yields_memory]
    exact d.yields_put _
  | memorySubtract =>
    rw [effect, yields_memory]
    exact d.yields_put _
  | history limit =>
    simp only [effect, perform]
    split <;> exact d.yields_put d.state
  | «recall» expression result => exact d.yields_settle _
  | recallIndex i => exact d.yields_recall i
  | _ => exact d.yields_put _

theorem after_concat (d : Desk) (xs : List Operation) (x : Operation) :
    d.after (xs ++ [x]) = ((d.after xs).perform x).2 := by
  simp [Desk.after]

theorem panel_after (d : Desk) (inputs : List Operation) : (d.after inputs).panel = d.panel := by
  induction inputs using List.reverseRecOn with
  | nil => rfl
  | append_singleton before x ih => rw [after_concat, (yields_perform _ x).1, ih]

theorem state_after_concat (d : Desk) (before : List Operation) (x : Operation) :
    (d.after (before ++ [x])).state =
      ((d.after before).effect x).apply d.panel (d.after before).state := by
  rw [after_concat, (yields_perform _ x).2, panel_after]

/-- What every effect keeps holds after every run. -/
theorem state_after {Kept : State → Prop} {d : Desk}
    (step : ∀ s, Kept s → ∀ e : Effect, Kept (e.apply d.panel s)) (first : Kept d.state)
    (inputs : List Operation) : Kept (d.after inputs).state := by
  induction inputs using List.reverseRecOn with
  | nil => exact first
  | append_singleton before x ih =>
    rw [state_after_concat]
    exact step _ ih _

/-- **A condition holds all along just if no step breaks it,** where the states that
can be reached keep what makes the step decide. -/
theorem kept_iff {Kept Good : State → Prop} {Breaks : State → Effect → Prop} {d : Desk}
    (kept : ∀ before, Kept (d.after before).state)
    (step : ∀ s, Kept s → Good s → ∀ e : Effect, Good (e.apply d.panel s) ↔ ¬ Breaks s e)
    (first : Good d.state) (inputs : List Operation) :
    (∀ before, before <+: inputs → Good (d.after before).state) ↔
      ∀ before x, before ++ [x] <+: inputs →
        ¬ Breaks (d.after before).state ((d.after before).effect x) := by
  constructor
  · intro good before x run
    have here := good before ((List.prefix_append before [x]).trans run)
    have next := good (before ++ [x]) run
    rw [state_after_concat] at next
    exact (step _ (kept before) here _).mp next
  · intro unbroken before run
    induction before using List.reverseRecOn with
    | nil => exact first
    | append_singleton before x ih =>
      have here := ih ((List.prefix_append before [x]).trans run)
      rw [state_after_concat]
      exact (step _ (kept before) here _).mpr (unbroken before x run)

end Desk

end DeskCalculator.Calculator
