import DeskCalculator.Proofs.Coherent

/-!
# What an operator continues from

An operator pressed without an operand takes the last result for one. `continues_iff_unstranded`:
that is what is on the display, unless an operation puts something else there or takes back
what has been typed over it, and forgets nothing.
-/

namespace DeskCalculator.Calculator
open Clock Display DeskCalculator.Expr History Number Numeral

namespace State

/-- Without an expression the last result is what is on the display. -/
def Continues (s : State) : Prop :=
  s.tokens = [] → s.entry = "" → ∀ r, s.lastResult = some r → s.display = r

instance (s : State) : Decidable s.Continues :=
  inferInstanceAs (Decidable (_ → _ → ∀ r ∈ s.lastResult, _))

/-- There is a last result, and the text is another. -/
def Astray (s : State) (text : String) : Prop := ∃ r, s.lastResult = some r ∧ text ≠ r

/-- An operation leaves no expression, and a last result that is not on the display. -/
def Strands (p : Panel) (s : State) : Effect → Prop
  | .clearEntry => s.Astray "0"
  | .backspace => s.entry ≠ "" ∧ shortened s.entry = "" ∧ s.Astray "0"
  | .clearExpression => s.Astray s.display
  | .pop => s.Readable ∧ s.Astray s.display
  | .press _ => ∃ x, s.currentValue? = some x ∧
    (s.pending = none ∧ s.Astray s.display ∨
      ∃ q a, s.pending = some q ∧ s.first = some a ∧ s.waiting = false ∧
        p.shown (some (q.fold a x)) ≠ p.params.errorText ∧
        s.Astray (p.shown (some (q.fold a x))))
  | _ => False

variable {s s' : State}

theorem continues_of_forgotten (h : s.lastResult = none) : s.Continues := by
  simp [Continues, h]

theorem continues_of_filled (h : s.entry ≠ "") : s.Continues := fun _ empty => absurd empty h

theorem Continues.of_same (h : s.Continues) (tokens : s'.tokens = s.tokens)
    (entry : s'.entry = s.entry) (result : s'.lastResult = s.lastResult)
    (display : s'.display = s.display) : s'.Continues := by
  rw [Continues, tokens, entry, result, display]
  exact h

theorem not_astray (text : String) (h : s.lastResult = none) : ¬ s.Astray text := by
  simp [Astray, h]

/-- Without an expression the last result goes on just if the display says nothing else. -/
theorem Coherent.continues_iff {lost : Prop} (h : s.Coherent lost) (entry : s.entry = "") :
    s.Continues ↔ ¬ s.Astray s.display := by
  constructor
  · rintro continues ⟨r, result, other⟩
    exact other (continues (h.result r result).2.1 entry r result)
  · intro settled tokens _ r result
    by_contra other
    exact settled ⟨r, result, other⟩

/-- An expression or an error leaves no last result. -/
theorem Coherent.forgotten_of_tokens {lost : Prop} (h : s.Coherent lost) (some : s.tokens ≠ []) :
    s.lastResult = none := by
  cases result : s.lastResult with
  | none => rfl
  | some r => exact absurd (h.result r result).2.1 some

theorem Coherent.forgotten_of_error {lost : Prop} (h : s.Coherent lost)
    (shown : s.errorShown = true) : s.lastResult = none := by
  cases result : s.lastResult with
  | none => rfl
  | some r =>
    rw [(h.result r result).2.2] at shown
    cases shown

theorem Continues.freshen (h : s.Continues) : s.freshen.Continues :=
  freshen_kept (continues_of_forgotten rfl) h

theorem Continues.digit (h : s.Continues) (p : Panel) (d : String) :
    (left (s.digit p d)).Continues :=
  digit_kept h (continues_of_forgotten rfl) (fun _ => continues_of_forgotten rfl) p d

theorem continues_decimal (s : State) : s.decimal.Continues := by
  obtain ⟨text, typed, -⟩ := s.decimal_cases
  rw [typed]
  exact continues_of_forgotten rfl

theorem Coherent.continues_backspace_iff {lost : Prop} (h : s.Coherent lost)
    (continues : s.Continues) (p : Panel) :
    s.backspace.Continues ↔ ¬ s.Strands p .backspace := by
  have kept := h.backspace
  rcases s.backspace_cases with ⟨filled, back⟩ | ⟨empty, some, back⟩ | ⟨empty, -, back⟩
  · rw [back] at kept ⊢
    by_cases rest : shortened s.entry = ""
    · rw [kept.continues_iff rest]
      simp [Strands, filled, rest, Astray]
    · exact iff_of_true (continues_of_filled rest) (by simp [Strands, rest])
  · rw [back]
    exact iff_of_true (continues_of_forgotten (h.forgotten_of_tokens some))
      (by simp [Strands, empty])
  · rw [back]
    exact iff_of_true continues (by simp [Strands, empty])

theorem Coherent.continues_wrap {lost : Prop} (h : s.Coherent lost) (some : s.tokens ≠ [])
    (p : Panel) (before wrapped : List Token) : (s.wrap p before wrapped).Continues := by
  rcases s.wrap_cases p before wrapped with ⟨x, -, -, same⟩ | ⟨-, same⟩
  · rw [same]
    exact continues_of_forgotten (h.forgotten_of_tokens some)
  · rw [same]
    exact continues_of_forgotten rfl

theorem continues_replace (p : Panel) (before : List Token) (x : Binary64) (s : State) :
    (s.replace p before x).Continues := continues_of_filled (plain_ne_empty x)

theorem Coherent.continues_percent {lost : Prop} (h : s.Coherent lost) (continues : s.Continues)
    (p : Panel) : (s.percent p).Continues := by
  rcases s.percent_cases p with
    ⟨before, inner, operand, same⟩ | ⟨before, x, -, same⟩ | ⟨-, same⟩
  · rw [same]
    exact h.continues_wrap (operand_group_filled operand) p _ _
  · rw [same]
    exact continues_replace p _ _ s
  · rw [same]
    exact continues

theorem Coherent.continues_unary {lost : Prop} (h : s.Coherent lost) (continues : s.Continues)
    (p : Panel) (f : Function) : (s.unary p f).Continues := by
  rcases s.unary_cases p f with ⟨before, inner, operand, same⟩ |
    ⟨before, x, -, ⟨-, same⟩ | ⟨-, same⟩⟩ | ⟨-, same⟩
  · rw [same]
    exact h.continues_wrap (operand_group_filled operand) p _ _
  · rw [same]
    exact continues_of_forgotten rfl
  · rw [same]
    exact continues_replace p _ _ s
  · rw [same]
    exact continues

theorem Coherent.continues_element {lost : Prop} (h : s.Coherent lost) (continues : s.Continues)
    (p : Panel) (x : Element) : (left (s.element p x)).Continues := by
  rcases element_cases p x h.result_filled with
    ⟨t, ts, display, -, -, placed, -⟩ | ⟨kept, -⟩ | ⟨r, resumed, -, -, stopped⟩
  · rw [placed]
    exact continues_of_forgotten rfl
  · rw [kept]
    exact continues.freshen
  · rw [stopped]
    obtain ⟨-, -, -, result⟩ := resumed?_eq_some resumed
    exact continues_of_filled (h.result_filled r result)

theorem continues_memoryRecall (p : Panel) (s : State) : (s.memoryRecall p).Continues := by
  rcases s.memoryRecall_cases p with ⟨-, same⟩ | ⟨-, same⟩
  · rw [same]
    exact continues_of_forgotten rfl
  · rw [same]
    exact continues_of_filled (plain_ne_empty _)

theorem Coherent.continues_folded_iff {lost : Prop} (h : s.Coherent lost)
    (calm : s.errorShown = false) (p : Panel) (q : BasicOperator) (a b : Binary64)
    (o : BasicOperator) :
    (s.folded p q a b o).Continues ↔ ¬ (p.shown (some (q.fold a b)) ≠ p.params.errorText ∧
      s.Astray (p.shown (some (q.fold a b)))) := by
  have kept := h.folded calm p q a b o
  unfold State.folded at kept ⊢
  by_cases error : p.shown (some (q.fold a b)) = p.params.errorText
  · rw [if_pos error]
    exact iff_of_true (continues_of_forgotten rfl) (by simp [error])
  · rw [if_neg error] at kept ⊢
    rw [kept.continues_iff rfl]
    simp [error, Astray]

theorem Coherent.continues_press_iff {lost : Prop} (h : s.Coherent lost)
    (continues : s.Continues) (p : Panel) (o : BasicOperator) :
    (s.pressBasic p o).Continues ↔ ¬ s.Strands p (.press o) := by
  have kept := h.press p o
  rcases press_cases p o h.begun with ⟨idle, same⟩ | ⟨q, pending, waiting, replaced⟩ |
    ⟨calm, x, value, ⟨pending, entered⟩ | ⟨q, a, pending, first, waiting, folded⟩⟩
  · rw [same]
    apply iff_of_true continues
    rintro ⟨x, value, strands⟩
    rcases idle with shown | none
    · have forgotten := h.forgotten_of_error shown
      rcases strands with ⟨-, astray⟩ | ⟨q, a, -, -, -, -, astray⟩
      · exact not_astray _ forgotten astray
      · exact not_astray _ forgotten astray
    · rw [none] at value
      cases value
  · rw [replaced]
    exact iff_of_true (continues.of_same rfl rfl rfl rfl)
      (by simp [Strands, pending, waiting])
  · rw [entered] at kept ⊢
    rw [kept.continues_iff rfl]
    simp [Strands, value, pending, Astray]
  · rw [folded, h.continues_folded_iff calm]
    simp [Strands, value, pending, first, waiting]

theorem Coherent.continues_pop_iff {lost : Prop} (h : s.Coherent lost) (continues : s.Continues)
    (p : Panel) : (Effect.pop.apply p s).Continues ↔ ¬ s.Strands p .pop := by
  have kept := h.pop p
  rcases s.pop_cases p with ⟨empty, popped⟩ | ⟨-, readable, popped⟩ | ⟨unread, popped⟩
  · rw [popped] at kept ⊢
    rw [kept.continues_iff empty]
    have settled := (h.continues_iff empty).mp continues
    exact iff_of_true settled fun strands => settled strands.2
  · rw [popped] at kept ⊢
    rw [kept.continues_iff rfl]
    simp [Strands, readable, Astray]
  · rw [popped]
    exact iff_of_true continues fun strands => unread strands.1

theorem continues_conclude (p : Panel) (o : Outcome) (s : State) :
    (s.conclude p o).Continues := by
  intro _ _ r result
  cases o with
  | value x => exact Option.some.inj result
  | failure kind message raw => cases result

/-- What each operation makes of the last result. -/
theorem Coherent.continues_apply_iff {lost : Prop} (h : s.Coherent lost) (continues : s.Continues)
    (p : Panel) (e : Effect) : (e.apply p s).Continues ↔ ¬ s.Strands p e := by
  cases e with
  | rest => exact iff_of_true continues id
  | digit d => exact iff_of_true (continues.digit p d) id
  | decimal => exact iff_of_true s.continues_decimal id
  | backspace => exact h.continues_backspace_iff continues p
  | percent => exact iff_of_true (h.continues_percent continues p) id
  | unary f => exact iff_of_true (h.continues_unary continues p f) id
  | element x => exact iff_of_true (h.continues_element continues p x) id
  | constant c => exact iff_of_true (continues_of_filled (plain_ne_empty c.value)) id
  | press o => exact h.continues_press_iff continues p o
  | finish =>
    refine iff_of_true ?_ id
    rcases s.finish_cases p with same | ⟨o, -, concluded⟩
    · rw [same]
      exact continues
    · rw [concluded]
      exact continues_conclude p o s
  | clear => exact iff_of_true (continues_of_forgotten rfl) id
  | clearEntry => exact h.clearEntry.continues_iff rfl
  | clearExpression => exact h.clearExpression.continues_iff rfl
  | pop => exact h.continues_pop_iff continues p
  | remember x => exact iff_of_true (continues.of_same rfl rfl rfl rfl) id
  | recollect => exact iff_of_true (s.continues_memoryRecall p) id
  | angle a => exact iff_of_true (continues.of_same rfl rfl rfl rfl) id
  | mode m =>
    refine iff_of_true ?_ id
    rcases s.setMode_cases m with ⟨-, same⟩ | ⟨-, same⟩
    · rw [Effect.apply, same]
      exact continues
    · rw [Effect.apply, same]
      exact continues_of_forgotten rfl
  | restore expression result =>
    refine iff_of_true ?_ id
    rcases s.restore_cases p expression result with ⟨tokens, -, same⟩ | same
    · rw [Effect.apply, same]
      exact continues_of_forgotten rfl
    · rw [Effect.apply, same]
      exact continues

/-- An operator without an operand makes a token of the last result. -/
theorem tokens_of_resumed {r : String} (resumed : s.resumed? = some r)
    (accepted : accepts r.toList = true) (p : Panel) (o : Operator) :
    (left (s.element p (.token (.operator o)))).tokens =
      [.number ⟨r, accepted⟩, .operator o] := by
  have filled : r ≠ "" := by
    rintro rfl
    cases accepted
  have tokens : (s.freshen.behind (.operator o)).currentTokens = .ok [.number ⟨r, accepted⟩] := by
    obtain ⟨-, none, -, -⟩ := resumed?_eq_some resumed
    rw [behind_of_resumed resumed, currentTokens, if_neg filled, ofNumeral_of_accepts accepted, none]
    rfl
  obtain ⟨display, placed, -⟩ := place_token p (.operator o) tokens
  rw [State.element, placed]
  rfl

end State

/-- **The last result is on the display all along just if no input strands it.** An
operator without an operand takes it for one, and that is what is shown. -/
theorem continues_iff_unstranded (p : Panel) (angle : AngleMode) (mode : Mode)
    (history : Option Store) (now : Instant) (inputs : List Operation) :
    let d (inputs : List Operation) := (Desk.start p angle mode history now).after inputs
    let Unstranded := ∀ before x, before ++ [x] <+: inputs →
      ¬ (d before).state.Strands p ((d before).effect x)
    ((∀ before, before <+: inputs → (d before).state.Continues) ↔ Unstranded) ∧
    ∀ x o r, (d inputs).effect x = .element (.token (.operator o)) →
      (d inputs).state.resumed? = some r →
      (Unstranded → (d inputs).state.display = r) ∧
      ∀ accepted : accepts r.toList = true, ((d inputs).perform x).2.state.tokens =
        [.number ⟨r, accepted⟩, .operator o] := by
  intro d Unstranded
  have coherent (inputs : List Operation) : (d inputs).state.Coherent True :=
    Desk.coherent_after p angle mode history now inputs
  have continues : (∀ before, before <+: inputs → (d before).state.Continues) ↔ Unstranded :=
    Desk.kept_iff coherent (fun s coherent continues e => coherent.continues_apply_iff continues p e)
      (State.continues_of_forgotten rfl) inputs
  refine ⟨continues, ?_⟩
  intro x o r operator resumed
  constructor
  · intro unstranded
    obtain ⟨-, tokens, entry, result⟩ := State.resumed?_eq_some resumed
    exact continues.mpr unstranded inputs (List.prefix_refl _) tokens entry r result
  · intro accepted
    rw [(Desk.yields_perform _ _).2, operator]
    exact State.tokens_of_resumed resumed accepted _ o

/-- Five is cleared from the display, and an addition goes on from it. -/
theorem not_continues_cleared :
    let d := (Desk.standard none ⟨0⟩).after [.digit "5", .equals, .clearEntry]
    ¬ d.state.Continues ∧ d.state.display = "0" ∧
      (d.perform (.operator .add)).2.state.expressionLine = .ok "5 +" := by
  decide +kernel

end DeskCalculator.Calculator
