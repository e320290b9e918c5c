import DeskCalculator.Proofs.Coherent

/-!
# Whether a second operand counts as entered

In basic mode an operator pressed right after another takes its place, and an operand
entered in between is to be folded first. `awaits_iff_undropped`: what has been entered
counts, unless an operation acts at once on the display while the second operand is
awaited, or leaves there a last result from which an operator cannot continue. Then the
next operator takes the place of the pending one, which is lost.
-/

namespace DeskCalculator.Calculator
open Clock Display DeskCalculator.Expr History Number Numeral

namespace State

/-- Nothing has been entered while the second operand is awaited. -/
def Awaits (s : State) : Prop := s.waiting = true → s.entry = ""

instance (s : State) : Decidable s.Awaits := inferInstanceAs (Decidable (_ → _))

/-- An operation enters a second operand that is still awaited then. -/
def Drops (p : Panel) (s : State) : Effect → Prop
  | .percent => s.waiting = true ∧ ∃ before x, s.operand = .value before x
  | .unary f => s.waiting = true ∧ ∃ before x, s.operand = .value before x ∧
      p.shown (some (f.apply s.angle x)) ≠ p.params.errorText
  | e => s.waiting = true ∧ s.Refuses e

variable {s s' : State}

theorem awaits_of_entered (h : s.waiting = false) : s.Awaits := by simp [Awaits, h]

theorem awaits_of_empty (h : s.entry = "") : s.Awaits := fun _ => h

theorem Awaits.of_same (h : s.Awaits) (waiting : s'.waiting = s.waiting)
    (entry : s'.entry = s.entry) : s'.Awaits := by
  rw [Awaits, waiting, entry]
  exact h

theorem awaits_iff_entered (filled : s.entry ≠ "") : s.Awaits ↔ s.waiting = false := by
  simp [Awaits, filled]

theorem Awaits.freshen (h : s.Awaits) : s.freshen.Awaits :=
  freshen_kept (awaits_of_entered rfl) h

theorem Awaits.digit (h : s.Awaits) (p : Panel) (d : String) : (left (s.digit p d)).Awaits :=
  digit_kept h (awaits_of_entered rfl) (fun _ => awaits_of_entered rfl) p d

theorem awaits_decimal (s : State) : s.decimal.Awaits := by
  obtain ⟨text, typed, -⟩ := s.decimal_cases
  rw [typed]
  exact awaits_of_entered rfl

theorem Awaits.backspace (h : s.Awaits) : s.backspace.Awaits := by
  rcases s.backspace_cases with ⟨filled, back⟩ | ⟨-, -, back⟩ | ⟨-, -, back⟩
  · rw [back]
    exact awaits_of_entered ((awaits_iff_entered filled).mp h)
  · rw [back]
    exact h.of_same rfl rfl
  · rw [back]
    exact h

theorem Awaits.wrap (h : s.Awaits) (p : Panel) (before wrapped : List Token) :
    (s.wrap p before wrapped).Awaits := by
  rcases s.wrap_cases p before wrapped with ⟨x, -, -, same⟩ | ⟨-, same⟩
  · rw [same]
    exact h.of_same rfl rfl
  · rw [same]
    exact awaits_of_empty rfl

/-- What replaces an operand is something entered. -/
theorem awaits_replace_iff (p : Panel) (before : List Token) (x : Binary64) (s : State) :
    (s.replace p before x).Awaits ↔ s.waiting = false :=
  awaits_iff_entered (s := s.replace p before x) (plain_ne_empty x)

theorem Awaits.percent_iff (h : s.Awaits) (p : Panel) :
    (s.percent p).Awaits ↔ ¬ s.Drops p .percent := by
  rcases s.percent_cases p with
    ⟨before, inner, operand, same⟩ | ⟨before, x, operand, same⟩ | ⟨operand, same⟩
  · rw [same]
    exact iff_of_true (h.wrap p _ _) (by simp [Drops, operand])
  · rw [same, awaits_replace_iff]
    simp [Drops, operand]
  · rw [same]
    exact iff_of_true h (by simp [Drops, operand])

theorem Awaits.unary_iff (h : s.Awaits) (p : Panel) (f : Function) :
    (s.unary p f).Awaits ↔ ¬ s.Drops p (.unary f) := by
  rcases s.unary_cases p f with ⟨before, inner, operand, same⟩ |
    ⟨before, x, operand, ⟨error, same⟩ | ⟨shown, same⟩⟩ | ⟨operand, same⟩
  · rw [same]
    exact iff_of_true (h.wrap p _ _) (by simp [Drops, operand])
  · rw [same]
    exact iff_of_true (awaits_of_empty rfl) (by simp [Drops, operand, error])
  · rw [same, awaits_replace_iff]
    simp [Drops, operand, shown]
  · rw [same]
    exact iff_of_true h (by simp [Drops, operand])

theorem Awaits.element_iff {lost : Prop} (h : s.Awaits) (coherent : s.Coherent lost) (p : Panel)
    (x : Element) : (left (s.element p x)).Awaits ↔ ¬ s.Drops p (.element x) := by
  rcases element_cases p x coherent.result_filled with
    ⟨t, ts, display, -, accepted, placed, -⟩ | ⟨kept, accepted⟩ | ⟨r, resumed, -, refuses, stopped⟩
  · rw [placed]
    exact iff_of_true (awaits_of_empty rfl) fun drops => accepted drops.2
  · rw [kept]
    exact iff_of_true h.freshen fun drops => accepted drops.2
  · rw [stopped]
    obtain ⟨-, -, -, result⟩ := resumed?_eq_some resumed
    rw [awaits_iff_entered (coherent.result_filled r result)]
    simp [Drops, refuses]

theorem awaits_memoryRecall (p : Panel) (s : State) : (s.memoryRecall p).Awaits := by
  rcases s.memoryRecall_cases p with ⟨-, same⟩ | ⟨-, same⟩
  · rw [same]
    exact awaits_of_entered rfl
  · rw [same]
    exact awaits_of_entered rfl

theorem awaits_folded (p : Panel) (q : BasicOperator) (a b : Binary64) (o : BasicOperator)
    (s : State) : (s.folded p q a b o).Awaits := by
  unfold State.folded
  split
  · exact awaits_of_empty rfl
  · exact awaits_of_empty rfl

theorem Awaits.press {lost : Prop} (h : s.Awaits) (coherent : s.Coherent lost) (p : Panel)
    (o : BasicOperator) : (s.pressBasic p o).Awaits := by
  rcases press_cases p o coherent.begun with ⟨-, same⟩ | ⟨q, -, -, replaced⟩ |
    ⟨-, x, -, ⟨-, entered⟩ | ⟨q, a, -, -, -, folded⟩⟩
  · rw [same]
    exact h
  · rw [replaced]
    exact h.of_same rfl rfl
  · rw [entered]
    exact awaits_of_empty rfl
  · rw [folded]
    exact awaits_folded p q a x o s

/-- What each operation makes of an awaited operand. -/
theorem Awaits.apply_iff {lost : Prop} (h : s.Awaits) (coherent : s.Coherent lost) (p : Panel)
    (e : Effect) : (e.apply p s).Awaits ↔ ¬ s.Drops p e := by
  cases e with
  | rest => exact iff_of_true h And.right
  | digit d => exact iff_of_true (h.digit p d) And.right
  | decimal => exact iff_of_true s.awaits_decimal And.right
  | backspace => exact iff_of_true h.backspace And.right
  | percent => exact h.percent_iff p
  | unary f => exact h.unary_iff p f
  | element x => exact h.element_iff coherent p x
  | constant c => exact iff_of_true (awaits_of_entered rfl) And.right
  | press o => exact iff_of_true (h.press coherent p o) And.right
  | finish =>
    refine iff_of_true ?_ And.right
    rcases s.finish_cases p with same | ⟨o, -, concluded⟩
    · rw [same]
      exact h
    · rw [concluded]
      exact awaits_of_entered rfl
  | clear => exact iff_of_true (awaits_of_entered rfl) And.right
  | clearEntry => exact iff_of_true (awaits_of_empty rfl) And.right
  | clearExpression => exact iff_of_true (awaits_of_empty rfl) And.right
  | pop =>
    refine iff_of_true ?_ And.right
    rcases s.pop_cases p with ⟨-, popped⟩ | ⟨-, -, popped⟩ | ⟨-, popped⟩
    · rw [popped]
      exact h.of_same rfl rfl
    · rw [popped]
      exact awaits_of_empty rfl
    · rw [popped]
      exact h
  | remember x => exact iff_of_true (h.of_same rfl rfl) And.right
  | recollect => exact iff_of_true (s.awaits_memoryRecall p) And.right
  | angle a => exact iff_of_true (h.of_same rfl rfl) And.right
  | mode m =>
    refine iff_of_true ?_ And.right
    rcases s.setMode_cases m with ⟨-, same⟩ | ⟨-, same⟩
    · rw [Effect.apply, same]
      exact h
    · rw [Effect.apply, same]
      exact awaits_of_entered rfl
  | restore expression result =>
    refine iff_of_true ?_ And.right
    rcases s.restore_cases p expression result with ⟨tokens, -, same⟩ | same
    · rw [Effect.apply, same]
      exact awaits_of_entered rfl
    · rw [Effect.apply, same]
      exact h

/-! The next operator -/

theorem currentValue_of_readable (readable : s.Readable) (filled : s.entry ≠ "") :
    ∃ b, s.currentValue? = some b := by
  obtain ⟨d, read⟩ := read?_of_accepts (readable.resolve_left filled)
  refine ⟨d.nearest, ?_⟩
  rw [currentValue?, if_neg filled, read]

/-- An operator takes the place of the pending one while the second operand is awaited,
and else it folds the operands. -/
theorem pressBasic_of_pending {q : BasicOperator} {a b : Binary64} (calm : s.errorShown = false)
    (pending : s.pending = some q) (first : s.first = some a) (value : s.currentValue? = some b)
    (p : Panel) (o : BasicOperator) :
    s.pressBasic p o = if s.waiting then { s with pending := some o } else s.folded p q a b o := by
  cases waiting : s.waiting with
  | true => simp [pressBasic, calm, pending, waiting]
  | false => simp [pressBasic, calm, waiting, value, fold, folded, pending, first]

end State

/-- **An operand entered after an operator counts all along just if no input drops it.**
The next operator folds the operands with the pending operator if it counts, and takes
the place of that if it does not. -/
theorem awaits_iff_undropped (p : Panel) (angle : AngleMode) (mode : Mode)
    (history : Option Store) (now : Instant) (inputs : List Operation) :
    let d (inputs : List Operation) := (Desk.start p angle mode history now).after inputs
    let Undropped := ∀ before x, before ++ [x] <+: inputs →
      ¬ (d before).state.Drops p ((d before).effect x)
    let s := (d inputs).state
    ((∀ before, before <+: inputs → (d before).state.Awaits) ↔ Undropped) ∧
    ∀ q, s.mode = .basic → s.pending = some q → s.entry ≠ "" →
      (Undropped → s.waiting = false) ∧
      (s.Readable → ∃ b, s.currentValue? = some b) ∧
      ∃ a, s.first = some a ∧ ∀ b o, s.currentValue? = some b →
        ((d inputs).perform (.operator o)).2.state =
          if s.waiting then { s with pending := some o } else s.folded p q a b o := by
  intro d Undropped s
  have coherent (inputs : List Operation) : (d inputs).state.Coherent True :=
    Desk.coherent_after p angle mode history now inputs
  have awaits : (∀ before, before <+: inputs → (d before).state.Awaits) ↔ Undropped :=
    Desk.kept_iff coherent (fun s coherent awaits e => awaits.apply_iff coherent p e)
      (State.awaits_of_empty rfl) inputs
  refine ⟨awaits, ?_⟩
  intro q basic pending filled
  refine ⟨?_, fun readable => State.currentValue_of_readable readable filled, ?_⟩
  · intro undropped
    exact (State.awaits_iff_entered filled).mp (awaits.mpr undropped inputs (List.prefix_refl _))
  · obtain ⟨calm, a, first⟩ := (coherent inputs).pending q pending
    refine ⟨a, first, ?_⟩
    intro b o value
    have pressed : ((d inputs).perform (.operator o)).2.state = s.pressBasic p o := by
      rw [(Desk.yields_perform _ _).2, Desk.effect, State.pressEffect, basic, Desk.panel_after]
      rfl
    rw [pressed]
    exact State.pressBasic_of_pending calm pending first value p o

/-- The percentage is entered after the addition, which the multiplication replaces. -/
theorem not_awaits_percentage :
    let d := (Desk.standard none ⟨0⟩).after
      [.mode .basic, .digit "5", .operator .add, .percent]
    let e := (d.perform (.operator .multiply)).2
    ¬ d.state.Awaits ∧ d.state.pending = some .add ∧ d.state.entry = "0.05" ∧
      e.state = { d.state with pending := some .multiply } := by
  decide +kernel

end DeskCalculator.Calculator
