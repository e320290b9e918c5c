import DeskCalculator.Proofs.Coherent
import DeskCalculator.Proofs.Modes
import DeskCalculator.Proofs.Panels
import DeskCalculator.Proofs.TwoPaths
import DeskCalculator.Settings.Load

/-!
# The text for errors

Any text but none may be the one for errors, and an error is told by the text on the display.
`tells_iff_distinct`: numbers are taken for errors just if a panel shows one of them by that
text, and an error counts in the memory just if its text reads as a number other than zero.
That a zero does not count rests on `memory_unsigned`: the memory is never minus zero.
-/

namespace DeskCalculator.Number.Binary64

theorem unsignZero_round (negative : Bool) {n : Nat} (pos : 0 < n) :
    (round negative n 1).unsignZero = round negative n 1 := by
  have step : spacing 1 ∣ 1 := by decide
  have least : 1 ≤ nearest n 1 := le_nearest Nat.one_pos step (by omega)
  have some : nearest n 1 ≠ 0 := by omega
  unfold round
  split
  · simp [unsignZero, some]
  · rfl

/-- A sum is minus zero only if all of its terms are. -/
theorem unsignZero_add_of_unsigned {x : Binary64} (h : x.unsignZero = x) (y : Binary64) :
    (x + y).unsignZero = x + y := by
  cases x with
  | nan => rfl
  | infinity s =>
    change (add _ y).unsignZero = add _ y
    cases y with
    | infinity t =>
      rw [add]
      split <;> rfl
    | nan => rfl
    | finite t n => rfl
  | finite s m =>
    cases y with
    | nan => rfl
    | infinity t => rfl
    | finite t n =>
      rw [add_finite, sum]
      by_cases none : signed s m + signed t n = 0
      · have signs : (s && t) = false := by
          cases s with
          | false => rfl
          | true =>
            have some : m.units ≠ 0 := by
              intro zero
              simp [unsignZero, zero] at h
            cases t with
            | false => rfl
            | true =>
              simp only [signed, ↓reduceIte] at none
              omega
        rw [if_pos none, signs, none, Int.natAbs_zero, round_zero]
        rfl
      · exact unsignZero_round _ (Int.natAbs_pos.mpr none)

/-- A number added to zero stays, but for the sign of a zero. -/
theorem zero_add (y : Binary64) : zero + y = y.unsignZero := by
  cases y with
  | nan => rfl
  | infinity t => rfl
  | finite t n =>
    rw [zero, add_finite, signed_zero, Int.zero_add, sum]
    by_cases none : n.units = 0
    · obtain rfl : n = .zero := Magnitude.eq_of_units none
      rw [signed_zero, if_pos rfl, Int.natAbs_zero, round_zero]
      cases t <;> rfl
    · have sign : decide (signed t n < 0) = t := by
        cases t
        · simp [signed]
        · simp only [signed, ↓reduceIte, decide_eq_true_eq]
          omega
      have size : (signed t n).natAbs = n.units := by cases t <;> simp [signed]
      have some : signed t n ≠ 0 := by omega
      rw [if_neg some, sign, size, round_of_nearest t (nearest_eq n.holds.2)]
      simp [unsignZero, none]

/-- A zero of either sign added to a number that is not minus zero changes nothing. -/
theorem add_zero {x z : Binary64} (h : x.unsignZero = x) (none : z.isZero = true) :
    x + z = x := by
  cases z with
  | nan => cases none
  | infinity t => cases none
  | finite t n =>
    obtain rfl : n = .zero := Magnitude.eq_of_units (beq_iff_eq.mp none)
    calc x + finite t .zero
        = (x + finite t .zero).unsignZero := (unsignZero_add_of_unsigned h _).symm
      _ = (finite false .zero + x).unsignZero := by rw [add_comm, unsignZero_zero_add t false]
      _ = x.unsignZero.unsignZero := congrArg unsignZero (zero_add x)
      _ = x := by rw [h, h]

@[simp]
theorem isFinite_neg (x : Binary64) : (-x).isFinite = x.isFinite := by
  cases x <;> rfl

theorem neg_neg (x : Binary64) : - -x = x := by
  cases x with
  | nan => rfl
  | infinity s => exact congrArg infinity (Bool.not_not s)
  | finite s m => exact congrArg (finite · m) (Bool.not_not s)

theorem sub_zero {x z : Binary64} (h : x.unsignZero = x) (none : z.isZero = true) :
    x - z = x := by
  apply add_zero h
  cases z with
  | nan => cases none
  | infinity t => cases none
  | finite t n => exact none

end DeskCalculator.Number.Binary64

namespace DeskCalculator.Display
open Number Numeral

/-- What a panel shows for a finite number reads as a number. -/
theorem read?_shown_isSome (p : Panel) {x : Binary64} (finite : x.isFinite = true) :
    (read? (p.shown (some x))).isSome = true := by
  obtain ⟨y, -, finite', laid⟩ := layout_eq_shown p finite
  cases y with
  | nan => cases finite'
  | infinity s => cases finite'
  | finite s m =>
    obtain ⟨past, within⟩ := read?_layout p.valid laid
    by_cases overflows : Overflows p.params s m
    · rw [past overflows]
      rfl
    · obtain ⟨-, y, read, -⟩ := within overflows
      rw [read]
      rfl

end DeskCalculator.Display

namespace DeskCalculator.Calculator
open Clock Display DeskCalculator.Expr History Number Numeral

/-- The memory takes zero, or what it is with a number added to it or taken away. -/
def Effect.Reckons (s : State) : Effect → Prop
  | .remember y => y = .zero ∨ ∃ x, y = s.memory + x ∨ y = s.memory - x
  | _ => True

namespace State

/-- An operation shows the error, and starts afresh, just if the number it comes to is not
finite. -/
structure Tells (p : Panel) (s : State) : Prop where
  unary (f : Function) {before : List Token} {x : Binary64} (operand : s.operand = .value before x) :
    s.unary p f = s.showError p ↔ (f.apply s.angle x).isFinite = false
  recollect : s.memoryRecall p = s.showError p ↔ s.memory.isFinite = false
  press (o q : BasicOperator) {a x : Binary64} (basic : s.mode = .basic)
    (calm : s.errorShown = false) (entered : s.waiting = false) (pending : s.pending = some q)
    (first : s.first = some a) (value : s.currentValue? = some x) :
    s.press p o = .ok (s.showError p) ↔ (q.fold a x).isFinite = false

/-- An error on the display does not count in the memory. -/
def Discounts (p : Panel) (s : State) : Prop :=
  s.display = p.params.errorText → s.errorShown = true → s.entry = "" →
    s.memoryAdd.memory = s.memory ∧ s.memorySubtract.memory = s.memory

variable {s : State}

theorem wrap_memory (p : Panel) (before wrapped : List Token) (s : State) :
    (s.wrap p before wrapped).memory = s.memory := by
  rcases s.wrap_cases p before wrapped with ⟨x, -, -, same⟩ | ⟨-, same⟩
  · rw [same]
  · rw [same]
    rfl

theorem percent_memory (p : Panel) (s : State) : (s.percent p).memory = s.memory := by
  rcases s.percent_cases p with ⟨before, inner, -, same⟩ | ⟨before, x, -, same⟩ | ⟨-, same⟩
  · rw [same]
    exact wrap_memory p _ _ s
  · rw [same]
    rfl
  · rw [same]

theorem unary_memory (p : Panel) (f : Function) (s : State) :
    (s.unary p f).memory = s.memory := by
  rcases s.unary_cases p f with ⟨before, inner, -, same⟩ |
    ⟨before, x, -, ⟨-, same⟩ | ⟨-, same⟩⟩ | ⟨-, same⟩
  · rw [same]
    exact wrap_memory p _ _ s
  · rw [same]
    rfl
  · rw [same]
    rfl
  · rw [same]

theorem press_memory (p : Panel) (o : BasicOperator) (s : State) :
    (s.pressBasic p o).memory = s.memory := by
  simp only [pressBasic, fold]
  split
  · rfl
  · split
    · rfl
    · split
      · split
        · split <;> rfl
        · rfl
      · rfl

/-- **Nothing but a new value for it reaches the memory.** -/
theorem memory_apply (p : Panel) {e : Effect} (other : ∀ x, e ≠ .remember x) (s : State) :
    (e.apply p s).memory = s.memory := by
  cases e with
  | digit d =>
    exact @digit_kept (fun s' => s'.memory = s.memory) s rfl rfl (fun _ => s.freshen_memory) p d
  | decimal =>
    obtain ⟨text, typed, -⟩ := s.decimal_cases
    rw [Effect.apply, typed]
    exact s.freshen_memory
  | backspace =>
    rcases s.backspace_cases with ⟨-, back⟩ | ⟨-, -, back⟩ | ⟨-, -, back⟩ <;>
      rw [Effect.apply, back]
  | percent => exact s.percent_memory p
  | unary f => exact s.unary_memory p f
  | element x =>
    obtain ⟨tokens, entry, display, lastResult, same⟩ := element_eq p x s
    rw [Effect.apply, same]
    exact s.freshen_memory
  | constant c => exact s.freshen_memory
  | press o => exact s.press_memory p o
  | finish =>
    rcases s.finish_cases p with same | ⟨o, -, concluded⟩
    · rw [same]
    · rw [concluded]
      rfl
  | pop =>
    rcases s.pop_cases p with ⟨-, popped⟩ | ⟨-, -, popped⟩ | ⟨-, popped⟩ <;> rw [popped]
  | remember x => exact absurd rfl (other x)
  | recollect =>
    rcases s.memoryRecall_cases p with ⟨-, same⟩ | ⟨-, same⟩
    · rw [Effect.apply, same]
      rfl
    · rw [Effect.apply, same]
      exact s.freshen_memory
  | mode m =>
    rcases s.setMode_cases m with ⟨-, same⟩ | ⟨-, same⟩
    · rw [Effect.apply, same]
    · rw [Effect.apply, same]
      rfl
  | restore expression result =>
    rcases s.restore_cases p expression result with ⟨tokens, -, same⟩ | same
    · rw [Effect.apply, same]
      rfl
    · rw [Effect.apply, same]
  | _ => rfl

end State

namespace Desk

theorem reckons_key (s : State) (t : Token) : (s.keyEffect t).Reckons s := by
  unfold State.keyEffect
  split <;> trivial

theorem reckons_press (s : State) (o : BasicOperator) : (s.pressEffect o).Reckons s := by
  unfold State.pressEffect
  split <;> trivial

theorem reckons_constant (s : State) (c : Constant) : (s.constantEffect c).Reckons s := by
  unfold State.constantEffect
  split <;> trivial

theorem reckons_finish (d : Desk) : d.finishEffect.Reckons d.state := by
  unfold finishEffect
  split <;> trivial

theorem reckons_recall (d : Desk) (i : Int) : (d.recallEffect i).Reckons d.state := by
  unfold recallEffect
  split
  · trivial
  · split
    · trivial
    · split <;> trivial

theorem reckons_add (s : State) : (s.memoryEffect (· + ·)).Reckons s := by
  unfold State.memoryEffect
  split
  · exact .inr ⟨_, .inl rfl⟩
  · trivial

theorem reckons_subtract (s : State) : (s.memoryEffect (· - ·)).Reckons s := by
  unfold State.memoryEffect
  split
  · exact .inr ⟨_, .inr rfl⟩
  · trivial

theorem reckons_command (d : Desk) (argument : Option String) (c : Command) :
    (d.commandEffect argument c).Reckons d.state := by
  cases c with
  | digit => cases argument <;> trivial
  | parenOpen | parenClose | power | sin | cos | tan | ln | log => exact reckons_key d.state _
  | add | subtract | multiply | divide => exact reckons_press d.state _
  | pi | e => exact reckons_constant d.state _
  | equals => exact reckons_finish d
  | memoryClear => exact .inl rfl
  | memoryPlus => exact reckons_add d.state
  | memoryMinus => exact reckons_subtract d.state
  | _ => trivial

theorem reckons_effect (d : Desk) (x : Operation) : (d.effect x).Reckons d.state := by
  cases x with
  | key name =>
    simp only [effect]
    split
    · exact reckons_command d _ _
    · trivial
  | command c argument => exact reckons_command d argument c
  | text symbol =>
    simp only [effect]
    split <;> trivial
  | constant c => exact reckons_constant d.state c
  | operator o => exact reckons_press d.state o
  | equals => exact reckons_finish d
  | memoryClear => exact .inl rfl
  | memoryAdd => exact reckons_add d.state
  | memorySubtract => exact reckons_subtract d.state
  | recallIndex i => exact reckons_recall d i
  | _ => trivial

/-- **The memory is never minus zero.** -/
theorem memory_unsigned {d : Desk} (h : d.state.memory.unsignZero = d.state.memory)
    (inputs : List Operation) :
    (d.after inputs).state.memory.unsignZero = (d.after inputs).state.memory := by
  induction inputs using List.reverseRecOn with
  | nil => exact h
  | append_singleton before x ih =>
    rw [state_after_concat]
    have reckons := reckons_effect (d.after before) x
    generalize (d.after before).effect x = e at reckons ⊢
    generalize (d.after before).state = s at ih reckons ⊢
    by_cases other : ∀ y, e ≠ .remember y
    · rw [State.memory_apply d.panel other]
      exact ih
    · rw [not_forall_not] at other
      obtain ⟨y, rfl⟩ := other
      rcases reckons with rfl | ⟨x, rfl | rfl⟩
      · rfl
      · exact Binary64.unsignZero_add_of_unsigned ih x
      · exact Binary64.unsignZero_add_of_unsigned ih (-x)

end Desk

namespace State
variable {s : State}

/-- A panel that shows no number by the text for errors tells errors from numbers. -/
theorem tells_of_distinct {p : Panel}
    (distinct : ∀ x, x.isFinite = true → p.shown (some x) ≠ p.params.errorText) (s : State) :
    s.Tells p := by
  have shown_iff (x : Binary64) : p.shown (some x) = p.params.errorText ↔ x.isFinite = false :=
    ⟨fun shown => Bool.eq_false_iff.mpr fun finite => distinct x finite shown,
      shown_of_not_finite p⟩
  have filled {s' : State} (entry : s'.entry ≠ "") : s' ≠ s.showError p := by
    rintro rfl
    exact entry rfl
  refine ⟨?_, ?_, ?_⟩
  · intro f before x operand
    rw [State.unary, operand]
    dsimp only
    split
    · rename_i shown
      exact iff_of_true rfl ((shown_iff _).mp shown)
    · rename_i other
      exact iff_of_false (filled (plain_ne_empty _)) (mt (shown_iff _).mpr other)
  · rw [memoryRecall, freshen_memory]
    split
    · rename_i shown
      exact iff_of_true (showError_freshen p s) ((shown_iff _).mp shown)
    · rename_i other
      exact iff_of_false (filled (plain_ne_empty _)) (mt (shown_iff _).mpr other)
  · intro o q a x basic calm entered pending first value
    have folded : s.press p o = .ok (s.folded p q a x o) := by
      simp [State.press, basic, pressBasic, calm, entered, value, fold, pending, first, folded]
    rw [folded, State.folded, Except.ok.injEq]
    split
    · rename_i shown
      exact iff_of_true rfl ((shown_iff _).mp shown)
    · rename_i other
      refine iff_of_false ?_ (mt (shown_iff _).mpr other)
      intro same
      cases congrArg State.pending same

/-- The text of an error that reads as zero, or as nothing, does not count. -/
theorem discounts_of_zero {p : Panel}
    (zero : ∀ x, read? p.params.errorText = some x → x.isZero = true)
    (unsigned : s.memory.unsignZero = s.memory) : s.Discounts p := by
  intro display _ entry
  have value : s.currentValue? = read? p.params.errorText := by
    rw [currentValue?, if_pos entry, display]
  rw [memoryAdd, memorySubtract, value]
  cases read : read? p.params.errorText with
  | none => exact ⟨rfl, rfl⟩
  | some x => exact ⟨Binary64.add_zero unsigned (zero x read), Binary64.sub_zero unsigned (zero x read)⟩

end State

namespace Desk

variable (p : Panel) (angle : AngleMode) (mode : Mode) (history : Option Store) (now : Instant)

/-- One over zero is an error. -/
theorem state_reciprocal :
    ((start p angle mode history now).after [.digit "0", .unary .reciprocal]).state =
      State.showError p { angle, mode } := by
  have key : isKeypadDigit "0" = true := by decide
  have room : ¬ p.params.maxLength ≤ 0 := by
    have := p.valid.1
    omega
  have typed : State.digit p "0" { angle, mode } = .ok (State.typed "0" { angle, mode }) := by
    simp [State.digit, key, State.freshen, room]
  have operand : (State.typed "0" { angle, mode }).operand = .value [] .zero := by
    have zero : (State.typed "0" { angle, mode }).currentValue? = some .zero :=
      show read? "0" = some .zero by decide
    rw [State.operand, zero]
    rfl
  have failed : (State.typed "0" { angle, mode }).unary p .reciprocal =
      State.showError p { angle, mode } := by
    rw [State.unary, operand]
    exact if_pos (shown_of_not_finite p rfl)
  change (((start p angle mode history now).settle
    (State.digit p "0" { angle, mode })).2.unary .reciprocal).2.state = _
  rw [typed]
  exact failed

/-- A number shown by the text for errors is taken for one where a negation comes to it. -/
theorem not_tells_of_shown {x : Binary64} (finite : x.isFinite = true)
    (shown : p.shown (some x) = p.params.errorText) :
    ∃ inputs, ¬ ((start p angle mode history now).after inputs).state.Tells p := by
  have negated : (-x).isFinite = true := (Binary64.isFinite_neg x).trans finite
  let n : Numeral := ⟨plain (-x), accepts_plain negated⟩
  have value : n.value = (-x).unsignZero := value_plain negated
  refine ⟨[.element (.token (.number n))], ?_⟩
  intro tells
  have operand : ((start p angle mode history now).after
      [.element (.token (.number n))]).state.operand = .value [] n.value := rfl
  have same : p.shown (some (-n.value)) = p.params.errorText := by
    rw [value, ← Panel.shown_unsignZero, Binary64.unsignZero_neg, Binary64.neg_neg,
      Panel.shown_unsignZero, shown]
  have failed := (tells.unary .neg operand).mp (by rw [State.unary, operand]; exact if_pos same)
  rw [Function.apply, Binary64.isFinite_neg, value, Binary64.isFinite_unsignZero, negated] at failed
  cases failed

/-- An error that reads as a number other than zero counts in a memory of zero. -/
theorem not_discounts_of_read {x : Binary64} (read : read? p.params.errorText = some x)
    (some : x.isZero = false) :
    ∃ inputs, ¬ ((start p angle mode history now).after inputs).state.Discounts p := by
  refine ⟨[.digit "0", .unary .reciprocal], ?_⟩
  rw [state_reciprocal]
  intro discounts
  have kept := (discounts rfl rfl rfl).1
  have value : (State.showError p { angle, mode }).currentValue? = .some x := read
  rw [State.memoryAdd, value] at kept
  have sum : .zero + x = Binary64.zero := kept
  rw [Binary64.zero_add] at sum
  rw [← Binary64.isZero_unsignZero, sum] at some
  cases some

end Desk

/-- **A panel tells errors from numbers just if it shows no number by the text for errors,** and
an error counts in the memory just if its text reads as a number other than zero. A text that
reads as no number has neither fault. -/
theorem tells_iff_distinct (p : Panel) (angle : AngleMode) (mode : Mode) (history : Option Store)
    (now : Instant) :
    let d (inputs : List Operation) := (Desk.start p angle mode history now).after inputs
    let Distinct := ∀ x : Binary64, x.isFinite = true → p.shown (some x) ≠ p.params.errorText
    let Void := ∀ x, read? p.params.errorText = some x → x.isZero = true
    ((∀ inputs, (d inputs).state.Tells p) ↔ Distinct) ∧
      ((∀ inputs, (d inputs).state.Discounts p) ↔ Void) ∧
      (read? p.params.errorText = none → Distinct ∧ Void) := by
  intro d Distinct Void
  refine ⟨⟨?_, fun distinct inputs => State.tells_of_distinct distinct _⟩, ⟨?_, ?_⟩, ?_⟩
  · intro tells x finite shown
    obtain ⟨inputs, fails⟩ := Desk.not_tells_of_shown p angle mode history now finite shown
    exact fails (tells inputs)
  · intro discounts x read
    cases some : x.isZero with
    | true => rfl
    | false =>
      obtain ⟨inputs, fails⟩ := Desk.not_discounts_of_read p angle mode history now read some
      exact absurd (discounts inputs) fails
  · exact fun void inputs => State.discounts_of_zero void (Desk.memory_unsigned rfl inputs)
  · intro none
    refine ⟨?_, fun x read => by rw [none] at read; cases read⟩
    intro x finite shown
    have read := read?_shown_isSome p finite
    rw [shown, none] at read
    cases read

/-- Errors are shown as a number. -/
def fives : Panel := ⟨{ errorText := "5" }, by decide⟩

/-- The settings admit a number as the text for errors. Then the root of 25 is an error, and an
error adds 5 to the memory. -/
theorem not_tells_five :
    let overrides : Settings.Fields := [("display", .mapping [("error_text", .text "5")]),
      ("history", .mapping [("enabled", .bool false)])]
    ∃ profile d, Settings.load "." none overrides = .ok profile ∧
      Desk.ofProfile profile ⟨0⟩ = .ok d ∧
      ¬ (d.after [.digit "2", .digit "5"]).state.Tells profile.display ∧
      ¬ (d.after [.digit "0", .unary .reciprocal]).state.Discounts profile.display := by
  refine ⟨{ display := fives, history := { enabled := false } },
    Desk.start fives .radians .advanced none ⟨0⟩, by rfl, by rfl, ?_, ?_⟩
  · intro tells
    have value : ((Desk.start fives .radians .advanced none ⟨0⟩).after
        [.digit "2", .digit "5"]).state.currentValue? = some (.ofInt 25) := by decide +kernel
    have operand : ((Desk.start fives .radians .advanced none ⟨0⟩).after
        [.digit "2", .digit "5"]).state.operand = .value [] (.ofInt 25) := by
      rw [State.operand, value]
      rfl
    have root := tells.unary .sqrt operand
    revert root
    decide +kernel
  · intro discounts
    have kept := (discounts (by decide +kernel) (by decide +kernel) (by decide +kernel)).1
    revert kept
    decide +kernel

end DeskCalculator.Calculator
