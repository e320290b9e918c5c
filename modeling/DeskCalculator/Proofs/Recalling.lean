import DeskCalculator.Proofs.Effect
import DeskCalculator.Proofs.Numbered
import DeskCalculator.Proofs.Spelling

/-!
# A calculation recalled

The history keeps the line of an expression, and the line is all that is needed to have the
tokens again, whatever they are: numerals in any spelling, and expressions that are none. So
an entry recalled puts the calculator where it was before it finished the calculation, and
it finishes it again with the same outcome: `recall_reproduces`.
-/

namespace DeskCalculator.Calculator
open Clock Display DeskCalculator.Expr History

namespace State

/-- The state after a past calculation has been recalled. -/
def recalled (p : Panel) (ts : List Token) (result : String) (s : State) : State :=
  { s.clear with tokens := ts, display := result, errorShown := result = p.params.errorText }

theorem restore_line (p : Panel) (ts : List Token) (result : String) (s : State) :
    s.restore p (Token.line ts) result = .ok (s.recalled p ts result) := by
  rw [restore, Token.parseAll_line]
  rfl

theorem calculation_of_tokens {s : State} (advanced : s.mode = .advanced) {ts : List Token}
    (tokens : s.currentTokens = .ok ts) (filled : ts ≠ []) :
    s.calculation = .ok (some ⟨Token.line ts, s.valueOf ts⟩) := by
  unfold calculation
  simp only [advanced, tokens, bind, Except.bind]
  rw [if_neg filled]
  rfl

/-- A calculation that has been recalled comes to its value under the angle mode of now. -/
theorem calculation_recalled {p : Panel} {ts : List Token} {result : String} {s : State}
    (advanced : s.mode = .advanced) (filled : ts ≠ []) (a : AngleMode) :
    calculation { s.recalled p ts result with angle := a } =
      .ok (some ⟨Token.line ts, evaluate a (ts.map .token)⟩) :=
  calculation_of_tokens (s := { s.recalled p ts result with angle := a }) advanced rfl filled

end State

namespace Desk

variable {d : Desk} {s : Store} {c : Calculation}

/-- Equals that answers has concluded its calculation. -/
theorem equals_of_answered (calculated : d.state.calculation = .ok (some c)) {o : Outcome}
    (answered : d.equals.1 = .ok (.outcome (some o))) :
    o = c.outcome ∧ d.equals.2.state.display = d.panel.render c.outcome := by
  obtain ⟨panel, -⟩ := d.yields_record c.expression (d.panel.render c.outcome)
  cases split : d.record c.expression (d.panel.render c.outcome) with
  | mk answer e =>
    rw [split] at panel
    cases answer with
    | error f =>
      rw [equals_of_refused calculated split] at answered
      cases answered
    | ok _ =>
      rw [equals_of_recorded calculated split] at answered ⊢
      cases answered
      exact ⟨rfl, congrArg (Panel.render · c.outcome) panel⟩

/-- With a store that can be written to equals answers and records, if its capacity is an
integer of 64 bits and there is a date for the time it is logged under, and fails if not. -/
theorem equals_recorded_iff (history : d.history = some s) (usable : s.place.trouble? = none)
    (writable : s.readOnly = false) (calculated : d.state.calculation = .ok (some c)) :
    (d.equals.1 = .ok (.outcome (some c.outcome)) ∧
      d.equals.2.state.display = d.panel.render c.outcome ∧
      d.equals.2.history = some { s with
        log := s.log.record s.capacity c.expression (d.panel.render c.outcome)
          d.now.epochMillis d.now }) ↔
      isStorable s.capacity = true ∧ (Instant.ofMillis d.now.epochMillis).Dated := by
  constructor
  · rintro ⟨answered, -, -⟩
    by_contra bad
    have balks : s.Balks d.now := by
      refine .inr ⟨usable, .inr ⟨writable, ?_⟩⟩
      rwa [not_and_or, Bool.not_eq_true] at bad
    obtain ⟨f, log, refused⟩ := record_of_balks history balks c.expression
      (d.panel.render c.outcome)
    rw [equals_of_refused calculated refused] at answered
    cases answered
  · rintro ⟨narrow, dated⟩
    have taken := Store.record_of_dated usable writable narrow (Option.getD_none ..) dated
      c.expression (d.panel.render c.outcome)
    have recorded := record_of_history history c.expression (d.panel.render c.outcome)
    rw [taken] at recorded
    rw [equals_of_recorded calculated recorded]
    exact ⟨rfl, rfl, rfl⟩

end Desk

/-- The entry that has a number given by a record is the one recorded, whenever it is found,
and the store it is found in can still be written to. -/
theorem entry_of_number {s t : Store} (numbered : s.log.Numbered) {now : Instant}
    {expression result : String} (later : (s.record now expression result none).2.Later t)
    {x : Entry} (held : x ∈ t.log.entries) (after : s.log.lastId < x.id)
    (within : x.id ≤ (s.record now expression result none).2.log.lastId) :
    (x.expression = expression ∧ x.result = result) ∧
      t.place.trouble? = none ∧ t.readOnly = false := by
  have there := later.stems.2 x held within
  rcases s.record_cases now expression result none with ⟨f, same⟩ |
    ⟨usable, writable, -, logged, -⟩
  · rw [same] at within
    exact absurd within (Nat.not_le.mpr after)
  · obtain ⟨usable', writable'⟩ :=
      (Store.Later.same.record now expression result none).writable usable writable
    refine ⟨?_, later.writable usable' writable'⟩
    rw [logged] at there
    rcases Log.mem_record there with rfl | before
    · exact ⟨rfl, rfl⟩
    · exact absurd (numbered x before) (Nat.not_le.mpr after)

/-- **A calculation that is recalled is reproduced.** An advanced calculator finishes a
calculation and records it in a store that has been in use since it was empty. If that store
later still has the entry, then recalling it on any advanced calculator with the same panel
brings back the tokens, the expression and the result. Under the angle mode of that time it
is the same calculation again. Equals answers the same outcome, with the same display and the
same record, just if the capacity of the store is now an integer of 64 bits and there is a date
for the time it is logged under. -/
theorem recall_reproduces {blank s s' t : Store} {d l : Desk} {ts : List Token} {o : Outcome}
    {x : Entry} (empty : blank.log.entries = []) (used : blank.Later s)
    (history : d.history = some s) (advanced : d.state.mode = .advanced)
    (tokens : d.state.currentTokens = .ok ts) (filled : ts ≠ [])
    (answered : d.equals.1 = .ok (.outcome (some o))) (recorded : d.equals.2.history = some s')
    (after : s.log.lastId < x.id) (within : x.id ≤ s'.log.lastId) (later : s'.Later t)
    (held : x ∈ t.log.entries) (kept : l.history = some t) (advanced' : l.state.mode = .advanced)
    (panel : l.panel = d.panel) :
    let r := l.perform (.recall x.expression x.result)
    let again := (r.2.perform (.angle d.state.angle)).2
    r.1 = .ok .nothing ∧ r.2.state.currentTokens = .ok ts ∧
    d.state.expressionLine = .ok x.expression ∧ r.2.state.expressionLine = .ok x.expression ∧
    d.equals.2.state.display = x.result ∧ r.2.state.display = x.result ∧
    again.state.calculation = .ok (some ⟨x.expression, o⟩) ∧
    (again.equals.1 = .ok (.outcome (some o)) ∧
      again.equals.2.state.display = d.equals.2.state.display ∧
      again.equals.2.history = some { t with
        log := t.log.record t.capacity x.expression x.result l.now.epochMillis l.now } ↔
      isStorable t.capacity = true ∧ (Instant.ofMillis l.now.epochMillis).Dated) := by
  have numbered : s.log.Numbered := used.numbered (by simp [Log.Numbered, empty])
  have calculated := State.calculation_of_tokens advanced tokens filled
  obtain ⟨rfl, shown⟩ := Desk.equals_of_answered calculated answered
  rw [Desk.history_equals history calculated] at recorded
  cases recorded
  obtain ⟨⟨expression, result⟩, usable, writable⟩ :=
    entry_of_number numbered later held after within
  intro r again
  have restored : r = (.ok .nothing, l.put (l.state.recalled l.panel ts x.result)) := by
    change l.settle (l.state.restore l.panel x.expression x.result) = _
    rw [expression, State.restore_line]
    rfl
  have same : again = l.put { l.state.recalled l.panel ts x.result with angle := d.state.angle } :=
    congrArg (fun r : Desk.Result => (r.2.perform (.angle d.state.angle)).2) restored
  have line : d.state.expressionLine = .ok x.expression := by
    rw [State.expressionLine, tokens, expression]
    rfl
  have calculated' : again.state.calculation = .ok (some ⟨x.expression, d.state.valueOf ts⟩) := by
    rw [same, expression]
    exact State.calculation_recalled advanced' filled d.state.angle
  rw [restored]
  refine ⟨rfl, rfl, line, ?_, shown.trans result.symm, rfl, calculated', ?_⟩
  · rw [expression]
    rfl
  · have repeated := Desk.equals_recorded_iff (d := again) (by rw [same]; exact kept) usable
      writable calculated'
    have drawn : again.panel = d.panel := by rw [same]; exact panel
    have moment : again.now = l.now := by rw [same]; rfl
    rw [drawn, moment] at repeated
    rw [shown, result]
    exact repeated

/-- An expression that is none, with numerals in spellings of their own, is recalled after
another calculation and a change of both modes, and fails again as it did. -/
theorem recall_malformed :
    let line := "٢ + .5e1 )"
    let d := (Desk.standard (some (.blank 2)) ⟨0⟩).after
      [.text "٢", .text "+", .text ".5e1", .text ")"]
    let l := d.equals.2.after [.digit "7", .equals, .mode .basic, .angle .degrees, .mode .advanced]
    let r := l.perform (.recall line "Error")
    let again := (r.2.perform (.angle d.state.angle)).2
    d.state.expressionLine = .ok line ∧ r.2.state.currentTokens = d.state.currentTokens ∧
      again.equals.1 = d.equals.1 ∧ again.equals.2.state.display = "Error" ∧
      again.equals.2.history.map (·.log.entries.map (·.expression)) = some [line, "7"] := by
  intro line d l r again
  let ts : List Token := [.number ⟨"٢", by decide +kernel⟩, .operator .add,
    .number ⟨".5e1", by decide +kernel⟩, .closing]
  let x : Entry := ⟨1, line, "Error", 0, ⟨0⟩⟩
  let s' : Store := { Store.blank 2 with log := ⟨[x], 1⟩ }
  have empty : (Store.blank 2).log.entries = [] := rfl
  have tokens : d.state.currentTokens = .ok ts := by decide +kernel
  have answered : d.equals.1 = .ok (.outcome (some (d.state.valueOf ts))) := by decide +kernel
  have recorded : d.equals.2.history = some s' := by decide +kernel
  obtain ⟨t, kept, later⟩ := Desk.later_after .same recorded
    [.digit "7", .equals, .mode .basic, .angle .degrees, .mode .advanced]
  have stored : l.history = some { Store.blank 2 with log := ⟨[⟨2, "7", "7", 0, ⟨0⟩⟩, x], 2⟩ } := by
    decide +kernel
  obtain rfl := Option.some.inj (stored.symm.trans kept)
  have dated : (Instant.ofMillis l.now.epochMillis).Dated := by decide +kernel
  obtain ⟨-, tokens', expression, -, display, -, -, repeated⟩ :=
    recall_reproduces empty .same (by decide +kernel) (by decide +kernel)
      tokens (List.cons_ne_nil _ _) answered recorded (x := x) (by decide) (by decide) later
      (by decide) kept (by decide +kernel) (by decide +kernel)
  obtain ⟨answer, same, log⟩ := repeated.mpr ⟨by decide, dated⟩
  refine ⟨expression, tokens'.trans tokens.symm, answer.trans answered.symm,
    same.trans display, ?_⟩
  rw [log]
  decide +kernel

/-- In the last microseconds of the year 9999 what is recalled cannot be finished again, and
neither can it with a store that has been opened for more entries than 64 bits can count. -/
theorem not_recall_reproduces :
    let d := (Desk.standard (some (.blank 50)) ⟨0⟩).after [.text "1"]
    let recalled (l : Desk) := (l.perform (.recall "1" "1")).2
    let late := recalled (d.equals.2.after [.clock ⟨253402300799999985⟩])
    let wide := recalled
      { d.equals.2 with
        history := some { Store.blank (2 ^ 63) with log := ⟨[⟨1, "1", "1", 0, ⟨0⟩⟩], 1⟩ } }
    d.equals.1 = .ok (.outcome (some (.value (.ofInt 1)))) ∧
    d.equals.2.history.map (·.log.entries) = some [⟨1, "1", "1", 0, ⟨0⟩⟩] ∧
    late.equals.1 = .error (.history (.clock (.yearOutOfRange 10000))) ∧
    wide.equals.1 = .error (.history .integerTooWide) := by
  intro d recalled late wide
  exact ⟨by decide +kernel, by decide +kernel, by decide +kernel, by decide +kernel⟩

end DeskCalculator.Calculator
