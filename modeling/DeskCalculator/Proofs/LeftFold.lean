import DeskCalculator.Proofs.Entering
import DeskCalculator.Proofs.ErrorFlag
import DeskCalculator.Proofs.Recording
import DeskCalculator.Proofs.TwoPaths

/-!
# Basic mode folds from the left

A chain of basic mode is a number and then turns: operators, of which the last one pressed
counts, and the number typed behind it. Between inputs the calculator keeps the value so far
itself, not the text that shows it (`Carries`, `Joins`). The first press behind a number folds
it in, and a press behind a press only takes its place, so each turn is folded once and in its
order (`Desk.follow_turns`). `folds_left` says what comes next, an end or an error.
-/

namespace DeskCalculator.Calculator
open Display DeskCalculator.Expr Number

/-- Operators that are pressed in vain, the one that takes their place, and its operand. -/
structure Turn where
  replaced : List BasicOperator
  operator : BasicOperator
  operand : Numeral

namespace Turn

def inputs (t : Turn) : List Operation :=
  (t.replaced ++ [t.operator]).map .operator ++ strokes (.number t.operand)

/-- What the turn makes of the value so far. -/
def apply (r : Binary64) (t : Turn) : Binary64 := t.operator.fold r t.operand.value

end Turn

/-- The turns folded from the left. -/
def total (x : Binary64) (turns : List Turn) : Binary64 := turns.foldl Turn.apply x

namespace State

/-- The operator has been pressed behind the value so far, and nothing since. -/
structure Carries (s : State) (o : BasicOperator) (r : Binary64) : Prop where
  basic : s.mode = .basic
  calm : s.errorShown = false
  pending : s.pending = some o
  first : s.first = some r
  waiting : s.waiting = true
  empty : s.entry = ""

/-- The operator stands between the value so far and an operand that has come. -/
structure Joins (s : State) (o : BasicOperator) (r b : Binary64) : Prop where
  basic : s.mode = .basic
  calm : s.errorShown = false
  pending : s.pending = some o
  first : s.first = some r
  entered : s.waiting = false
  second : s.currentValue? = some b

/-- Whatever operator is pressed next, it is pressed behind this value. -/
structure Offers (s : State) (r : Binary64) : Prop where
  basic : s.mode = .basic
  next : ∀ o, (s.pressBasic .standard o).Carries o r

variable {s : State} {o : BasicOperator} {r b : Binary64}

theorem currentValue?_typed (s : State) (n : Numeral) :
    (s.typed n.text).currentValue? = some n.value := by
  have filled : n.text ≠ "" := (Numeral.solid_of_accepts n.accepted).1
  obtain ⟨x, read⟩ := Numeral.read?_of_accepts n.accepted
  simp [currentValue?, typed, filled, Numeral.value, read]

/-- An operator pressed behind another takes its place. -/
theorem Carries.offers (h : s.Carries o r) : s.Offers r := by
  refine ⟨h.basic, fun o' => ?_⟩
  have replaced : s.pressBasic .standard o' = { s with pending := some o' } := by
    simp [pressBasic, h.calm, h.pending, h.waiting]
  rw [replaced]
  exact ⟨h.basic, h.calm, rfl, h.first, h.waiting, h.empty⟩

theorem Carries.typed (h : s.Carries o r) (n : Numeral) : (s.typed n.text).Joins o r n.value :=
  ⟨h.basic, h.calm, h.pending, h.first, rfl, s.currentValue?_typed n⟩

theorem Joins.pressBasic (h : s.Joins o r b) (p : Panel) (o' : BasicOperator) :
    s.pressBasic p o' = s.fold p o' b := by
  simp [State.pressBasic, h.calm, h.entered, h.second]

/-- An operator pressed behind an operand folds it in, and keeps the fold as it is. -/
theorem Joins.offers (h : s.Joins o r b) (finite : (o.fold r b).isFinite = true) :
    s.Offers (o.fold r b) := by
  refine ⟨h.basic, fun o' => ?_⟩
  have shown : Panel.standard.shown (some (o.fold r b)) ≠ Panel.standard.params.errorText := by
    intro error
    rw [shown_eq_error_iff, finite] at error
    cases error
  simp only [h.pressBasic, fold, h.pending, h.first, if_neg shown]
  exact ⟨h.basic, h.calm, rfl, rfl, rfl, rfl⟩

theorem Joins.stops (h : s.Joins o r b) (lost : (o.fold r b).isFinite = false)
    (o' : BasicOperator) : s.pressBasic .standard o' = s.showError .standard := by
  simp only [h.pressBasic, fold, h.pending, h.first, if_pos ((shown_eq_error_iff _).mpr lost)]

/-- The first number of a chain is the value so far. -/
theorem offers_first (basic : s.mode = .basic) (calm : s.errorShown = false)
    (none : s.pending = none) (value : s.currentValue? = some b) : s.Offers b := by
  refine ⟨basic, fun o => ?_⟩
  have pressed : s.pressBasic .standard o =
      { s with first := some b, pending := some o, waiting := true, entry := "" } := by
    simp [pressBasic, calm, none, value, fold]
  rw [pressed]
  exact ⟨basic, calm, rfl, rfl, rfl, rfl⟩

theorem Joins.calculation (h : s.Joins o r b) :
    s.calculation = .ok (some (o.calculation r b)) := by
  simp [State.calculation, h.basic, basicCalculation, h.pending, h.first, h.second,
    BasicOperator.calculation]

end State

namespace Desk
open State

variable {d : Desk} {s : State} {r : Binary64}

theorem perform_operator (basic : s.mode = .basic) (o : BasicOperator) :
    (d.put s).perform (.operator o) = (.ok .nothing, d.put (s.pressBasic d.panel o)) := by
  simp only [perform, put, press, basic]
  rfl

theorem follow_number (calm : s.errorShown = false) (empty : s.entry = "") {n : Numeral}
    (fits : Fits d.panel.params.maxLength (.number n)) :
    (d.put s).follow (strokes (.number n)) = .ok (d.put (s.typed n.text)) := by
  have typed := follow_typed calm empty fits.1 fits.2
  rwa [String.ofList_toList] at typed

/-- Of several operators pressed behind a value the last one counts. -/
theorem follow_presses (panel : d.panel = .standard) (h : s.Offers r)
    (os : List BasicOperator) (o : BasicOperator) :
    ∃ s', (d.put s).follow ((os ++ [o]).map .operator) = .ok (d.put s') ∧ s'.Carries o r := by
  have pressed {s : State} (h : s.Offers r) (o : BasicOperator) :
      (d.put s).perform (.operator o) = (.ok .nothing, d.put (s.pressBasic .standard o)) := by
    rw [perform_operator h.basic, panel]
  induction os generalizing s with
  | nil => exact ⟨_, follow_cons_ok (pressed h o), h.next o⟩
  | cons q os ih =>
    obtain ⟨s', followed, carries⟩ := ih (h.next q).offers
    exact ⟨s', (follow_cons_ok (pressed h q)).trans followed, carries⟩

theorem follow_turn (panel : d.panel = .standard) (h : s.Offers r) {t : Turn}
    (fits : Fits d.panel.params.maxLength (.number t.operand)) :
    ∃ s', (d.put s).follow t.inputs = .ok (d.put s') ∧
      s'.Joins t.operator r t.operand.value := by
  obtain ⟨s', pressed, carries⟩ := follow_presses panel h t.replaced t.operator
  refine ⟨s'.typed t.operand.text, ?_, carries.typed t.operand⟩
  rw [Turn.inputs, follow_append_ok pressed, follow_number carries.calm carries.empty fits]

/-- While the folds are finite each turn finds the turns before it folded. -/
theorem follow_turns (panel : d.panel = .standard) (h : s.Offers r) {earlier : List Turn}
    {last : Turn}
    (fits : ∀ t ∈ earlier ++ [last], Fits d.panel.params.maxLength (.number t.operand))
    (finite : ∀ turns, turns <+: earlier → turns ≠ [] → (total r turns).isFinite = true) :
    ∃ s', (d.put s).follow ((earlier ++ [last]).flatMap Turn.inputs) = .ok (d.put s') ∧
      s'.Joins last.operator (total r earlier) last.operand.value := by
  induction earlier generalizing s r with
  | nil =>
    obtain ⟨s', followed, joins⟩ := follow_turn panel h (fits last List.mem_cons_self)
    exact ⟨s', by simpa using followed, joins⟩
  | cons t earlier ih =>
    obtain ⟨fit, fits⟩ := List.forall_mem_cons.mp fits
    obtain ⟨s₁, turned, joins⟩ := follow_turn panel h fit
    have first : (t.apply r).isFinite = true :=
      finite [t] (List.cons_prefix_cons.mpr ⟨rfl, List.nil_prefix⟩) (List.cons_ne_nil _ _)
    obtain ⟨s', followed, joins⟩ := ih (joins.offers first) fits fun turns before _ =>
      finite (t :: turns) (List.cons_prefix_cons.mpr ⟨rfl, before⟩) (List.cons_ne_nil _ _)
    refine ⟨s', ?_, joins⟩
    rw [List.cons_append, List.flatMap_cons, follow_append_ok turned, followed]

end Desk

/-- **Basic mode is a left fold without precedence.** As long as each fold before the last is
finite, a chain runs to its end without an error; there equals answers and shows the outcome of
the last turn folded onto the value so far, unless there is a history whose store balks. If that
fold is not finite, then any operator pressed instead shows the error and forgets the pending
operator. -/
theorem folds_left {d : Desk} (panel : d.panel = .standard) (basic : d.state.mode = .basic)
    (cleared : d.state.clear = d.state) (x : Numeral) (earlier : List Turn) (last : Turn)
    (fits : ∀ n ∈ x :: (earlier ++ [last]).map Turn.operand,
      Fits d.panel.params.maxLength (.number n))
    (finite : ∀ turns, turns <+: earlier → turns ≠ [] →
      (total x.value turns).isFinite = true) :
    let r := total x.value earlier
    let y := last.operator.fold r last.operand.value
    let outcome := Outcome.ofValue y (last.operator == .divide && last.operand.value.isZero)
    ∃ s, d.follow (strokes (.number x) ++ (earlier ++ [last]).flatMap Turn.inputs) =
        .ok (d.put s) ∧ s.errorShown = false ∧
      ((∀ store ∈ d.history, ¬ store.Balks d.now) →
        ((d.put s).perform .equals).1 = .ok (.outcome (some outcome)) ∧
        ((d.put s).perform .equals).2.state.display = d.panel.render outcome) ∧
      (y.isFinite = false → ∀ o, ∃ t,
        (d.put s).perform (.operator o) = (.ok .nothing, d.put t) ∧
        t.display = d.panel.params.errorText ∧ t.errorShown = true ∧
        t.pending = none ∧ t.first = none) := by
  intro r y outcome
  obtain ⟨fit, fits⟩ := List.forall_mem_cons.mp fits
  obtain ⟨calm, empty, none⟩ : d.state.errorShown = false ∧ d.state.entry = "" ∧
      d.state.pending = none := by
    rw [← cleared]
    exact ⟨rfl, rfl, rfl⟩
  have typed := Desk.follow_number (d := d) calm empty fit
  have offers : (d.state.typed x.text).Offers x.value :=
    State.offers_first basic calm none (d.state.currentValue?_typed x)
  obtain ⟨s, followed, joins⟩ := Desk.follow_turns panel offers
    (fun t ht => fits _ (List.mem_map_of_mem ht)) finite
  refine ⟨s, ?_, joins.calm, fun calm => ?_, fun lost o => ?_⟩
  · exact (Desk.follow_append_ok typed).trans followed
  · have recorded := Desk.record_ok (d := d.put s) calm
      (last.operator.calculation r last.operand.value).expression (d.panel.render outcome)
    have answered := Desk.equals_of_recorded (d := d.put s) joins.calculation
      (Prod.ext recorded rfl)
    obtain ⟨kept, -⟩ := Desk.yields_record (d.put s)
      (last.operator.calculation r last.operand.value).expression (d.panel.render outcome)
    rw [Desk.perform, answered]
    exact ⟨rfl, congrArg (Panel.render · outcome) kept⟩
  · refine ⟨s.showError d.panel, ?_, rfl, rfl, rfl, rfl⟩
    rw [Desk.perform_operator joins.basic, panel, joins.stops lost]

/-- Two over three times three is two, and over zero nothing, with operators that are replaced. -/
theorem folds_left_thirds :
    let d := Desk.start .standard .radians .basic none ⟨0⟩
    let two : Numeral := ⟨"2", Eq.refl true⟩
    let third : Turn := ⟨[.add, .multiply], .divide, ⟨"3", Eq.refl true⟩⟩
    let thrice : Turn := ⟨[], .multiply, ⟨"3", Eq.refl true⟩⟩
    let void : Turn := ⟨[.subtract], .divide, ⟨"0", Eq.refl true⟩⟩
    (∃ s, d.follow (strokes (.number two) ++ [third, thrice].flatMap Turn.inputs) =
        .ok (d.put s) ∧
      ((d.put s).perform .equals).1 = .ok (.outcome (some (.value (.ofInt 2)))) ∧
      ((d.put s).perform .equals).2.state.display = "2") ∧
    ∃ s, d.follow (strokes (.number two) ++ [third, void].flatMap Turn.inputs) = .ok (d.put s) ∧
      ∃ t, (d.put s).perform (.operator .add) = (.ok .nothing, d.put t) ∧
        t.display = "Error" ∧ t.pending = none := by
  intro d two third thrice void
  have finite (turns : List Turn) (before : turns <+: [third]) (some : turns ≠ []) :
      (total two.value turns).isFinite = true := by
    rcases List.prefix_cons_iff.mp before with rfl | ⟨rest, rfl, none⟩
    · exact absurd rfl some
    · obtain rfl := List.prefix_nil.mp none
      decide +kernel
  constructor
  · obtain ⟨s, followed, -, equals, -⟩ := folds_left (d := d) rfl rfl rfl two [third] thrice
      (by decide) finite
    obtain ⟨answered, shown⟩ := equals (by simp [d, Desk.start])
    refine ⟨s, followed, answered.trans ?_, shown.trans ?_⟩
    · decide +kernel
    · decide +kernel
  · obtain ⟨s, followed, -, -, stops⟩ := folds_left (d := d) rfl rfl rfl two [third] void
      (by decide) finite
    obtain ⟨t, pressed, shown, -, forgotten, -⟩ := stops (by decide +kernel) .add
    exact ⟨s, followed, t, pressed, shown, forgotten⟩

end DeskCalculator.Calculator
