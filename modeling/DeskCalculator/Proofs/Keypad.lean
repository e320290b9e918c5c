import DeskCalculator.Proofs.Effect
import DeskCalculator.Proofs.Sound

/-!
# Where the keypad fails

Commands and keys keep a calculator sound, whether they fail or not, and `Heeds`
says when they fail: where the text that is due to become a token is the name of
an infinity. Of the results that equals leaves, only those past the brink of the
display are such texts, and before the display has shown a number past the brink
the keypad fails nowhere: `keypad_fails_iff`.
-/

namespace DeskCalculator.Calculator
open Clock Display DeskCalculator.Expr Number Numeral

/-- The token that a command puts behind the others. -/
def Command.token? : Command → Option Token
  | .parenOpen => some .opening
  | .parenClose => some .closing
  | .add => some (.operator .add)
  | .subtract => some (.operator .subtract)
  | .multiply => some (.operator .multiply)
  | .divide => some (.operator .divide)
  | .power => some (.operator .power)
  | .sin => some (.function .sin)
  | .cos => some (.function .cos)
  | .tan => some (.function .tan)
  | .ln => some (.function .ln)
  | .log => some (.function .log)
  | .pi => some (.constant .pi)
  | .e => some (.constant .e)
  | _ => none

/-- The text of which a command makes a token before it does anything else. -/
def State.due (s : State) (c : Command) : String :=
  match c.token? with
  | some t => (s.freshen.behind t).entry
  | none => if c = .equals then s.entry else ""

theorem State.Sound.seen_of_due {seen : Prop} {s : State} (h : s.Sound seen) {c : Command}
    (named : namesInfinity (s.due c).toList = true) : seen := by
  unfold State.due at named
  split at named
  · exact seen_of_namesInfinity (h.freshen.behind _) named
  · split at named
    · exact seen_of_namesInfinity (h.entry.imp_right Typed.lasting) named
    · cases named

/-- Right after equals an operator continues from the text of the outcome. -/
theorem State.due_conclude {c : Command} {k : Operator} (h : c.token? = some (.operator k))
    (p : Panel) (o : Outcome) (s : State) :
    (s.conclude p o).due c = if o.ok then p.render o else "" := by
  rw [State.due, h]
  cases o with
  | value x => simp [behind, continued, State.freshen, conclude, clear, Outcome.ok]
  | failure kind message raw =>
    simp [behind, continued, State.freshen, conclude, clear, Outcome.ok]

theorem State.namesInfinity_due_iff {c : Command} {k : Operator}
    (h : c.token? = some (.operator k)) {o : Outcome}
    (finite : ∀ x, o = .value x → x.isFinite = true) (s : State) :
    namesInfinity ((s.conclude .standard o).due c).toList = true ↔ o.Soars := by
  rw [State.due_conclude h, ← namesInfinity_render_iff finite]
  cases o with
  | value x => rfl
  | failure kind message raw =>
    have nothing : namesInfinity [] = false := rfl
    simp [Outcome.ok, Panel.render, not_namesInfinity_error, nothing]

/-- What the keypad and a keyboard send: any key, and any command, digits with theirs. -/
def isPress : Operation → Bool
  | .key _ => true
  | .command .digit argument => argument.any isKeypadDigit
  | .command _ _ => true
  | _ => false

/-- The command of an input of the keypad. -/
def command? : Operation → Option Command
  | .key name => (ofKey? name).map Prod.fst
  | .command c _ => some c
  | _ => none

theorem isPress_of_token? {c : Command} {t : Token} (h : c.token? = some t) :
    isPress (.command c none) = true := by
  cases c with
  | digit => cases h
  | _ => rfl

theorem isPress_of_ofKey? {name : String} {c : Command} {argument : Option String}
    (h : ofKey? name = some (c, argument)) : isPress (.command c argument) = true := by
  unfold ofKey? at h
  split at h
  · rename_i digit
    cases h
    exact digit
  · obtain ⟨b, bound, same⟩ := Option.map_eq_some_iff.mp h
    cases same
    have none : ∀ binding ∈ bindings, binding.2 ≠ .digit := by decide
    obtain ⟨before, after, listed, -⟩ := List.lookup_eq_some_iff.mp bound
    have other : c ≠ .digit := none (name, c) (by simp [listed])
    cases c with
    | digit => exact absurd rfl other
    | _ => rfl

namespace Desk

variable {seen : Prop}

/-- A calculator on which only the keypad has worked. -/
structure Sound (seen : Prop) (d : Desk) : Prop where
  panel : d.panel = .standard
  unrecorded : d.history = none
  state : d.state.Sound seen

theorem Sound.put {d : Desk} (h : d.Sound seen) {s : State} (sound : s.Sound seen) :
    (d.put s).Sound seen := ⟨h.panel, h.unrecorded, sound⟩

/-- A result that fails just where the text due is the name of an infinity, and
that leaves a sound calculator if what it shows is noted. -/
structure Heeds (seen : Prop) (due : String) (r : Result) : Prop where
  sound : r.2.state.Noted seen → r.2.Sound seen
  fails : ∀ f, r.1 = .error f ↔
    namesInfinity due.toList = true ∧ f = .expression (.notNumeral due)

theorem heeds_ok {d : Desk} {due : String} (h : d.state.Noted seen → d.Sound seen)
    (other : namesInfinity due.toList = false) (reply : Reply) :
    Heeds seen due (.ok reply, d) := ⟨h, by simp [other]⟩

theorem heeds_error {d : Desk} {due : String} (h : d.Sound seen)
    (named : namesInfinity due.toList = true) :
    Heeds seen due (.error (.expression (.notNumeral due)), d) :=
  ⟨fun _ => h, by simp [named, eq_comm]⟩

theorem Heeds.fails_iff {due : String} {r : Result} (h : Heeds seen due r) :
    (∃ f, r.1 = .error f) ↔ namesInfinity due.toList = true := by
  simp [h.fails]

theorem Sound.done {d : Desk} (h : d.Sound seen) {s : State}
    (sound : s.Noted seen → s.Sound seen) : Heeds seen "" (d.done s) :=
  heeds_ok (fun noted => h.put (sound noted)) rfl _

theorem Sound.token {d : Desk} (h : d.Sound seen) {t : Token} (other : ∀ n, t ≠ .number n) :
    Heeds seen (d.state.freshen.behind t).entry
      (d.settle (d.state.element .standard (.token t))) := by
  rcases h.state.element other with ⟨s', placed, sound, unnamed⟩ | ⟨left, refused, sound, named⟩
  · rw [placed]
    exact heeds_ok (fun noted => h.put (sound noted)) unnamed _
  · rw [refused]
    exact heeds_error (h.put sound) named

theorem Heeds.silent {due : String} {r : Result} (h : Heeds seen due r) :
    Heeds seen due (silent r) := by
  obtain ⟨answer, d⟩ := r
  cases answer with
  | error f => exact h
  | ok reply => exact ⟨h.sound, fun f => by simpa [Desk.silent] using h.fails f⟩

/-- Equals makes a token of the number being typed, whatever is on the display,
and with that and the other tokens finishes a calculation if there are any. -/
theorem Sound.equals_cases {d : Desk} (h : d.Sound seen) :
    (namesInfinity d.state.entry.toList = true ∧
      d.equals = (.error (.expression (.notNumeral d.state.entry)), d)) ∨
    namesInfinity d.state.entry.toList = false ∧
      (d.equals = (.ok (.outcome none), d) ∨
        ∃ o, (∀ x, o = .value x → x.isFinite = true) ∧
          d.equals = (.ok (.outcome (some o)), d.put (d.state.conclude .standard o))) := by
  have calculation : d.state.calculation = d.state.currentTokens.bind fun ts =>
      .ok (if ts = [] then none else some ⟨Token.line ts, d.state.valueOf ts⟩) := by
    rw [State.calculation, h.state.advanced]
    rfl
  cases named : namesInfinity d.state.entry.toList with
  | true =>
    rw [State.currentTokens_of_namesInfinity named] at calculation
    left
    rw [Desk.equals, calculation]
    exact ⟨rfl, rfl⟩
  | false =>
    obtain ⟨ts, tokens, -⟩ := State.currentTokens_of_lasting h.state.tokens
      (h.state.entry.imp_right Typed.lasting) named
    rw [tokens] at calculation
    right
    refine ⟨rfl, ?_⟩
    rw [Desk.equals, calculation]
    by_cases none : ts = []
    · left
      simp only [Except.bind, none, ↓reduceIte]
    · right
      refine ⟨d.state.valueOf ts, fun x => isFinite_of_evaluate, ?_⟩
      simp only [Except.bind, none, ↓reduceIte, record, h.unrecorded, h.panel]

theorem Sound.equals {d : Desk} (h : d.Sound seen) : Heeds seen d.state.entry d.equals := by
  rcases h.equals_cases with ⟨named, failed⟩ | ⟨other, unchanged | ⟨o, finite, concluded⟩⟩
  · rw [failed]
    exact heeds_error h named
  · rw [unchanged]
    exact heeds_ok (fun _ => h) other _
  · rw [concluded]
    exact heeds_ok (fun noted => h.put (h.state.conclude finite noted)) other _

theorem Sound.command {d : Desk} (h : d.Sound seen) {argument : Option String} {c : Command}
    (legal : isPress (.command c argument) = true) :
    Heeds seen (d.state.due c) (d.command argument c) := by
  have key (t : Token) :
      d.state.expressionKey d.panel t = d.state.element .standard (.token t) := by
    rw [State.expressionKey, h.state.advanced, h.panel]
  have press (o : BasicOperator) : d.state.press d.panel o =
      d.state.element .standard (.token (.operator o.symbol)) := by
    rw [State.press, h.state.advanced, h.panel]
  have constant (k : Constant) : d.state.constant d.panel k =
      d.state.element .standard (.token (.constant k)) := by
    rw [State.constant, h.state.freshen.advanced, h.panel, State.element, State.freshen_freshen]
    rfl
  have unary (f : Function) : Heeds seen "" (Desk.silent (d.unary f)) := by
    rw [Desk.unary, h.panel]
    exact heeds_ok (fun noted => h.put (h.state.unary f noted)) rfl _
  cases c with
  | digit =>
    obtain ⟨a, rfl, digit⟩ := (Option.any_eq_true ..).mp legal
    obtain ⟨s', typed, sound⟩ := h.state.digit digit
    rw [Desk.command, h.panel, typed]
    exact h.done fun _ => sound
  | decimal => exact h.done fun _ => h.state.decimal
  | clear => exact h.done fun _ => State.sound_clear h.state.advanced
  | clearEntry => exact h.done fun _ => h.state.clearEntry
  | backspace => exact h.done fun _ => h.state.backspace
  | percent => rw [Desk.command, h.panel]; exact h.done h.state.percent
  | parenOpen => rw [Desk.command, key]; exact h.token (by simp)
  | parenClose => rw [Desk.command, key]; exact h.token (by simp)
  | add => rw [Desk.command, press]; exact h.token (by simp)
  | subtract => rw [Desk.command, press]; exact h.token (by simp)
  | multiply => rw [Desk.command, press]; exact h.token (by simp)
  | divide => rw [Desk.command, press]; exact h.token (by simp)
  | power => rw [Desk.command, key]; exact h.token (by simp)
  | equals => exact h.equals.silent
  | negate => exact unary .neg
  | sqrt => exact unary .sqrt
  | square => exact unary .square
  | reciprocal => exact unary .reciprocal
  | sin => rw [Desk.command, key]; exact h.token (by simp)
  | cos => rw [Desk.command, key]; exact h.token (by simp)
  | tan => rw [Desk.command, key]; exact h.token (by simp)
  | ln => rw [Desk.command, key]; exact h.token (by simp)
  | log => rw [Desk.command, key]; exact h.token (by simp)
  | pi => rw [Desk.command, constant]; exact h.token (by simp)
  | e => rw [Desk.command, constant]; exact h.token (by simp)
  | memoryClear => exact h.done fun _ => h.state.memoryClear
  | memoryRecall => rw [Desk.command, h.panel]; exact h.done h.state.memoryRecall
  | memoryPlus => exact h.done fun _ => h.state.memoryAdd
  | memoryMinus => exact h.done fun _ => h.state.memorySubtract
  | angleToggle => exact h.done fun _ => h.state.toggleAngle

theorem Sound.perform {d : Desk} (h : d.Sound seen) {x : Operation} (legal : isPress x = true) :
    Heeds seen (((command? x).map d.state.due).getD "") (d.perform x) := by
  cases x with
  | command c argument => exact h.command legal
  | key name =>
    cases bound : ofKey? name with
    | none =>
      simp only [Desk.perform, Desk.key, command?, bound]
      exact heeds_ok (fun _ => h) rfl _
    | some press =>
      obtain ⟨c, argument⟩ := press
      have done := h.command (isPress_of_ofKey? bound)
      simp only [Desk.perform, Desk.key, command?, bound, Option.map_some, Option.getD_some]
      cases result : d.command argument c with
      | mk answer e =>
        rw [result] at done
        cases answer with
        | error f => exact done
        | ok reply => exact ⟨done.sound, fun f => by simpa using done.fails f⟩
  | _ => cases legal

/-- Equals with a calculation to finish concludes it with a finite value or a failure. -/
theorem Sound.perform_equals {d : Desk} (h : d.Sound seen) {o : Outcome}
    (answered : d.equals.1 = .ok (.outcome (some o))) :
    (∀ x, o = .value x → x.isFinite = true) ∧
      (d.perform (.command .equals none)).2 = d.put (d.state.conclude .standard o) := by
  have quiet : (d.perform (.command .equals none)).2 = d.equals.2 := silent_snd d.equals
  rw [quiet]
  rcases h.equals_cases with ⟨-, failed⟩ | ⟨-, unchanged | ⟨o', finite, concluded⟩⟩
  · rw [failed] at answered
    cases answered
  · rw [unchanged] at answered
    cases answered
  · rw [concluded] at answered ⊢
    cases answered
    exact ⟨finite, rfl⟩

/-- Nothing fails before an infinity has been seen. -/
theorem Sound.seen_of_fails {d : Desk} (h : d.Sound seen) {x : Operation}
    (legal : isPress x = true) {f : DeskFault} (failed : (d.perform x).1 = .error f) : seen := by
  obtain ⟨named, -⟩ := ((h.perform legal).fails f).mp failed
  cases bound : command? x with
  | none =>
    rw [bound] at named
    cases named
  | some c =>
    rw [bound] at named
    exact h.state.seen_of_due named

/-- Whatever has been pressed, what failed included, the calculator is sound. -/
theorem Sound.after {d : Desk} (h : d.Sound seen) {presses : List Operation}
    (legal : ∀ x ∈ presses, isPress x = true)
    (noted : ∀ before, before <+: presses → (d.after before).state.Noted seen) :
    (d.after presses).Sound seen := by
  induction presses generalizing d with
  | nil => exact h
  | cons x rest ih =>
    have next : (d.perform x).2.Sound seen := by
      apply (h.perform (legal x List.mem_cons_self)).sound
      exact noted [x] (by simp)
    apply ih next fun y hy => legal y (List.mem_cons_of_mem _ hy)
    intro before start
    exact noted (x :: before) (List.cons_prefix_cons.mpr ⟨rfl, start⟩)

theorem sound_standard (now : Instant) : (Desk.standard none now).Sound seen :=
  ⟨rfl, rfl, rfl, allFinite_nil, .inl rfl, by simp [standard, start], definite_zero⟩

end Desk

/-- **Where the keypad fails.** Whatever has been pressed before, an input fails
just where its command makes a token of a text that starts as the name of an
infinity, and never before the display has shown a number past its brink. Equals
leaves such a text, and an operator then fails, just when the result is one. -/
theorem keypad_fails_iff (now : Instant) (presses : List Operation)
    (legal : ∀ x ∈ presses, isPress x = true) :
    (∀ x, isPress x = true → ∀ f,
      (((Desk.standard none now).after presses).perform x).1 = .error f ↔
        ∃ c, command? x = some c ∧
          namesInfinity (((Desk.standard none now).after presses).state.due c).toList = true ∧
          f = .expression (.notNumeral (((Desk.standard none now).after presses).state.due c))) ∧
    (∀ x, isPress x = true → ∀ f,
      (((Desk.standard none now).after presses).perform x).1 = .error f →
        ∃ before, before <+: presses ∧
          Soaring ((Desk.standard none now).after before).state.display) ∧
    ∀ o, ((Desk.standard none now).after presses).equals.1 = .ok (.outcome (some o)) →
      (∀ r, ((Desk.standard none now).after (presses ++ [.command .equals none])).state.lastResult =
        some r → ((∃ t, Token.ofNumeral r = .ok t) ↔ ¬ o.Soars)) ∧
      ∀ c k, c.token? = some (.operator k) →
        ((∃ f, (((Desk.standard none now).after (presses ++ [.command .equals none])).perform
          (.command c none)).1 = .error f) ↔ o.Soars) := by
  have sound : ((Desk.standard none now).after presses).Sound
      (∃ before, before <+: presses ∧
        Soaring ((Desk.standard none now).after before).state.display) :=
    (Desk.sound_standard now).after legal fun before start soaring => ⟨before, start, soaring⟩
  have free : ((Desk.standard none now).after presses).Sound True :=
    (Desk.sound_standard now).after legal fun _ _ _ => trivial
  rw [Desk.after_concat]
  generalize (∃ before, before <+: presses ∧
    Soaring ((Desk.standard none now).after before).state.display) = seen at sound ⊢
  generalize (Desk.standard none now).after presses = d at sound free ⊢
  refine ⟨?_, ?_, ?_⟩
  · intro x pressed f
    rw [(sound.perform pressed).fails]
    cases command? x with
    | none => simp [namesInfinity]
    | some c => simp
  · intro x pressed f failed
    exact sound.seen_of_fails pressed failed
  · intro o answered
    obtain ⟨finite, concluded⟩ := free.perform_equals answered
    rw [concluded]
    constructor
    · intro r result
      exact State.ofNumeral_of_conclude finite result
    · intro c k operator
      have sound' : (d.put (d.state.conclude .standard o)).Sound True :=
        free.put (free.state.conclude finite fun _ => trivial)
      have heeds := sound'.command (isPress_of_token? operator)
      exact heeds.fails_iff.trans (State.namesInfinity_due_iff operator finite d.state)

/-- The number 65535.999999995 in parentheses, with its 64th power. -/
def soaring : List Operation :=
  let digits (text : String) : List Operation :=
    text.toList.map fun c => .command .digit (some (String.singleton c))
  .command .parenOpen none :: digits "65535" ++ .command .decimal none :: digits "999999995" ++
    .command .parenClose none :: List.replicate 6 (.command .square none)

/-- The power as a double. -/
def soared : Magnitude := ⟨9007199254697024 * 2 ^ 2045, by decide +kernel⟩

/-- The power is past the brink, and an operator cannot continue from it. -/
theorem keypad_fails_soaring : (∀ x ∈ soaring, isPress x = true) ∧
    ∃ f, (((Desk.standard none ⟨0⟩).after (soaring ++ [.command .equals none])).perform
      (.command .add none)).1 = .error f := by
  have legal : ∀ x ∈ soaring, isPress x = true := by decide
  have past : brink < soared.units := by decide +kernel
  have power : ((Desk.standard none ⟨0⟩).after soaring).equals.1 =
      .ok (.outcome (some (.value (.finite false soared)))) := by decide +kernel
  have fails := ((keypad_fails_iff ⟨0⟩ soaring legal).2.2 _ power).2 .add .add rfl
  exact ⟨legal, fails.mpr ⟨false, soared, rfl, past⟩⟩

end DeskCalculator.Calculator
