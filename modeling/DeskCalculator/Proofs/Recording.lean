import DeskCalculator.Calculator.Desk
import DeskCalculator.Proofs.Storing

/-!
# What the history has to do with an input

Only equals writes to the history, only two inputs ask it, and the clock says when it is
written. To every other input both are nothing: `ignores_perform`. Equals goes on or fails
with the record it makes: `equals_of_recorded`, `equals_of_refused`.
-/

namespace DeskCalculator.Calculator
open Clock Display DeskCalculator.Expr History

namespace Operation

/-- The input finishes the calculation, if there is one. -/
def finishes : Operation → Bool
  | .equals => true
  | .command c _ => c == .equals
  | .key name => (ofKey? name).any fun press => press.1 == .equals
  | _ => false

/-- The input asks what the history holds. -/
def asks : Operation → Bool
  | .history _ | .recallIndex _ => true
  | _ => false

def time? : Operation → Option Instant
  | .clock now => some now
  | _ => none

end Operation

namespace Desk

/-- The same calculator with another history, at another time. -/
def apart (d : Desk) (history : Option Store) (now : Instant) : Desk := { d with history, now }

/-- The history and the time are nothing to it, and it leaves them. -/
def Ignores (f : Desk → Result) : Prop :=
  ∀ d history now, f (d.apart history now) = ((f d).1, (f d).2.apart history now)

theorem Ignores.kept {f : Desk → Result} (h : Ignores f) (d : Desk) :
    (f d).2.history = d.history ∧ (f d).2.now = d.now := by
  have same : f d = ((f d).1, (f d).2.apart d.history d.now) := h d d.history d.now
  rw [same]
  exact ⟨rfl, rfl⟩

theorem ignores_settle (r : Panel → State → Except Halt State) :
    Ignores fun d => d.settle (r d.panel d.state) := by
  intro d history now
  change (d.apart history now).settle (r d.panel d.state) =
    ((d.settle (r d.panel d.state)).1, (d.settle (r d.panel d.state)).2.apart history now)
  cases r d.panel d.state <;> rfl

theorem ignores_command {c : Command} (h : c ≠ .equals) (argument : Option String) :
    Ignores fun d => d.command argument c := by
  intro d history now
  cases c with
  | equals => exact absurd rfl h
  | digit =>
    cases argument with
    | none => rfl
    | some a => exact ignores_settle (fun p s => s.digit p a) d history now
  | parenOpen => exact ignores_settle (fun p s => s.expressionKey p .opening) d history now
  | parenClose => exact ignores_settle (fun p s => s.expressionKey p .closing) d history now
  | add => exact ignores_settle (fun p s => s.press p .add) d history now
  | subtract => exact ignores_settle (fun p s => s.press p .subtract) d history now
  | multiply => exact ignores_settle (fun p s => s.press p .multiply) d history now
  | divide => exact ignores_settle (fun p s => s.press p .divide) d history now
  | power => exact ignores_settle (fun p s => s.expressionKey p (.operator .power)) d history now
  | sin => exact ignores_settle (fun p s => s.expressionKey p (.function .sin)) d history now
  | cos => exact ignores_settle (fun p s => s.expressionKey p (.function .cos)) d history now
  | tan => exact ignores_settle (fun p s => s.expressionKey p (.function .tan)) d history now
  | ln => exact ignores_settle (fun p s => s.expressionKey p (.function .ln)) d history now
  | log => exact ignores_settle (fun p s => s.expressionKey p (.function .log)) d history now
  | pi => exact ignores_settle (fun p s => s.constant p .pi) d history now
  | e => exact ignores_settle (fun p s => s.constant p .e) d history now
  | _ => rfl

theorem ignores_key {name : String} (h : (Operation.key name).finishes = false) :
    Ignores fun d => d.key name := by
  intro d history now
  unfold key
  cases bound : ofKey? name with
  | none => rfl
  | some press =>
    obtain ⟨c, argument⟩ := press
    have other : c ≠ .equals := by simpa [Operation.finishes, bound] using h
    have same := ignores_command other argument d history now
    dsimp only at same ⊢
    rw [same]
    cases d.command argument c with
    | mk answer after => cases answer <;> rfl

/-- **The history and the time are nothing to an input that neither writes nor asks it and
does not set the clock.** -/
theorem ignores_perform {x : Operation} (writes : x.finishes = false) (asks : x.asks = false)
    (time : x.time? = none) : Ignores fun d => d.perform x := by
  intro d history now
  cases x with
  | key name => exact ignores_key writes d history now
  | command c argument =>
    have other : c ≠ .equals := by simpa [Operation.finishes] using writes
    exact ignores_command other argument d history now
  | text symbol => exact ignores_settle (fun p s => s.text p symbol) d history now
  | element x => exact ignores_settle (fun p s => s.element p x) d history now
  | digit a => exact ignores_settle (fun p s => s.digit p a) d history now
  | constant c => exact ignores_settle (fun p s => s.constant p c) d history now
  | operator o => exact ignores_settle (fun p s => s.press p o) d history now
  | equals => cases writes
  | evaluate =>
    simp only [perform, evaluated, apart]
    cases d.state.currentTokens <;> rfl
  | pop =>
    simp only [perform, pop, apart]
    cases d.state.pop <;> rfl
  | history limit => cases asks
  | «recall» expression result =>
    exact ignores_settle (fun p s => s.restore p expression result) d history now
  | recallIndex i => cases asks
  | clock t => cases time
  | _ => rfl

/-- Only equals writes, and only the clock tells the time. -/
theorem kept_perform {x : Operation} (writes : x.finishes = false) (d : Desk) :
    (d.perform x).2.history = d.history ∧ (d.perform x).2.now = x.time?.getD d.now := by
  by_cases plain : x.asks = false ∧ x.time? = none
  · rw [plain.2]
    exact (ignores_perform writes plain.1 plain.2).kept d
  · cases x with
    | clock t => exact ⟨rfl, rfl⟩
    | history limit =>
      simp only [perform]
      split <;> exact ⟨rfl, rfl⟩
    | recallIndex i =>
      simp only [perform, recallIndex]
      split
      · exact ⟨rfl, rfl⟩
      · split
        · exact ⟨rfl, rfl⟩
        · split
          · exact (ignores_settle (fun p s => s.restore p _ _)).kept d
          · exact ⟨rfl, rfl⟩
    | _ => exact absurd ⟨rfl, rfl⟩ plain

/-- A fault of the store itself is passed over. -/
theorem record_of_history {d : Desk} {s : Store} (h : d.history = some s)
    (expression result : String) :
    d.record expression result =
      (match (s.record d.now expression result none).1 with
        | .ok _ => .ok ()
        | .error f => if f.operation.isSome then .ok () else .error (.history f),
      d.apart (some (s.record d.now expression result none).2) d.now) := by
  unfold record
  rw [h]
  dsimp only
  cases s.record d.now expression result none with
  | mk answer after => cases answer <;> rfl

theorem record_of_calm {d : Desk} {s : Store} (h : d.history = some s) (calm : ¬ s.Balks d.now)
    (expression result : String) :
    ∃ log, d.record expression result = (.ok (), d.apart (some { s with log }) d.now) := by
  have balks := s.record_balks_iff d.now expression result
  obtain ⟨log, kept⟩ := s.record_frame d.now expression result none
  refine ⟨log, ?_⟩
  rw [record_of_history h, kept]
  cases answer : (s.record d.now expression result none).1 with
  | ok id => rfl
  | error f =>
    have passed : f.operation.isSome = true := by
      cases operation : f.operation with
      | some name => rfl
      | none => exact absurd (balks.mp ⟨f, answer, operation⟩) calm
    simp only [passed, ↓reduceIte]

theorem record_of_balks {d : Desk} {s : Store} (h : d.history = some s) (balks : s.Balks d.now)
    (expression result : String) :
    ∃ f log, d.record expression result = (.error f, d.apart (some { s with log }) d.now) := by
  obtain ⟨f, answer, operation⟩ := (s.record_balks_iff d.now expression result).mpr balks
  obtain ⟨log, kept⟩ := s.record_frame d.now expression result none
  refine ⟨.history f, log, ?_⟩
  rw [record_of_history h, kept, answer]
  simp only [operation, Option.isSome_none, Bool.false_eq_true, ↓reduceIte]

theorem record_of_bare {d : Desk} (h : d.history = none) (expression result : String) :
    d.record expression result = (.ok (), d) := by
  unfold Desk.record
  rw [h]

/-- A record fails only if there is a history and its store balks. -/
theorem record_ok {d : Desk} (calm : ∀ s ∈ d.history, ¬ s.Balks d.now)
    (expression result : String) : (d.record expression result).1 = .ok () := by
  cases history : d.history with
  | none => rw [record_of_bare history]
  | some s =>
    obtain ⟨log, recorded⟩ := record_of_calm history (calm s history) expression result
    rw [recorded]

theorem equals_of_error {d : Desk} {f : Expr.Fault} (h : d.state.calculation = .error f) :
    d.equals = (.error (.expression f), d) := by
  simp only [equals, h]

theorem equals_of_none {d : Desk} (h : d.state.calculation = .ok none) :
    d.equals = (.ok (.outcome none), d) := by
  simp only [equals, h]

theorem equals_of_recorded {d e : Desk} {c : Calculation}
    (calculated : d.state.calculation = .ok (some c))
    (recorded : d.record c.expression (d.panel.render c.outcome) = (.ok (), e)) :
    d.equals =
      (.ok (.outcome (some c.outcome)), e.put (e.state.conclude e.panel c.outcome)) := by
  unfold equals
  simp only [calculated, recorded]

theorem equals_of_refused {d e : Desk} {c : Calculation} {f : DeskFault}
    (calculated : d.state.calculation = .ok (some c))
    (refused : d.record c.expression (d.panel.render c.outcome) = (.error f, e)) :
    d.equals = (.error f, e) := by
  unfold equals
  simp only [calculated, refused]

/-- Equals is one thing under all its names, but for what it answers. -/
theorem perform_of_finishes {x : Operation} (h : x.finishes = true) :
    ∃ told : Reply → Reply, ∀ d : Desk, d.perform x = (d.equals.1.map told, d.equals.2) := by
  have command (argument : Option String) (d : Desk) :
      d.command argument .equals = (d.equals.1.map fun _ => .nothing, d.equals.2) := by
    simp only [Desk.command]
    cases d.equals with
    | mk answer after => cases answer <;> rfl
  cases x with
  | equals =>
    refine ⟨id, fun d => ?_⟩
    simp only [perform]
    cases d.equals with
    | mk answer after => cases answer <;> rfl
  | command c argument =>
    obtain rfl : c = .equals := by simpa [Operation.finishes] using h
    exact ⟨_, command argument⟩
  | key name =>
    cases bound : ofKey? name with
    | none => simp [Operation.finishes, bound] at h
    | some press =>
      obtain ⟨c, argument⟩ := press
      obtain rfl : c = .equals := by simpa [Operation.finishes, bound] using h
      refine ⟨fun _ => .flag true, fun d => ?_⟩
      simp only [perform, key, bound, command]
      cases d.equals with
      | mk answer after => cases answer <;> rfl
  | _ => cases h

theorem now_record (d : Desk) (expression result : String) :
    (d.record expression result).2.now = d.now := by
  unfold Desk.record
  split
  · rfl
  · dsimp only
    split <;> rfl

theorem now_equals (d : Desk) : d.equals.2.now = d.now := by
  cases calculated : d.state.calculation with
  | error f => rw [equals_of_error calculated]
  | ok whole =>
    cases whole with
    | none => rw [equals_of_none calculated]
    | some c =>
      have same := d.now_record c.expression (d.panel.render c.outcome)
      cases recorded : d.record c.expression (d.panel.render c.outcome) with
      | mk answer e =>
        rw [recorded] at same
        cases answer with
        | error f => rw [equals_of_refused calculated recorded, same]
        | ok _ =>
          rw [equals_of_recorded calculated recorded]
          exact same

theorem now_perform (d : Desk) (x : Operation) : (d.perform x).2.now = x.time?.getD d.now := by
  cases writes : x.finishes with
  | false => exact (kept_perform writes d).2
  | true =>
    obtain ⟨told, same⟩ := perform_of_finishes writes
    have none : x.time? = none := by cases x <;> first | rfl | cases writes
    rw [same, none]
    exact d.now_equals

/-- The times that the clock shows during a run. -/
def times (now : Instant) (inputs : List Operation) : List Instant :=
  now :: inputs.filterMap Operation.time?

theorem times_perform (d : Desk) (x : Operation) (later : List Operation) :
    (times (d.perform x).2.now later).Sublist (times d.now (x :: later)) := by
  rw [now_perform, times, times]
  cases time : x.time? with
  | none =>
    rw [List.filterMap_cons_none time]
    exact List.Sublist.refl _
  | some t =>
    rw [List.filterMap_cons_some time]
    exact List.sublist_cons_self ..

theorem times_after (before later : List Operation) (d : Desk) :
    (times (d.after before).now later).Sublist (times d.now (before ++ later)) := by
  induction before generalizing d with
  | nil => exact List.Sublist.refl _
  | cons x before ih => exact (ih (d.perform x).2).trans (d.times_perform x _)

theorem now_mem_times {e : Desk} {inputs before : List Operation} (run : before <+: inputs) :
    (e.after before).now ∈ times e.now inputs := by
  obtain ⟨later, rfl⟩ := run
  exact (times_after before later e).subset (List.mem_cons_self ..)

end Desk

end DeskCalculator.Calculator
