import DeskCalculator.Calculator.Desk
import Mathlib.Data.List.Chain

/-!
# Entering an expression

The tokens of an expression are entered one after another: numbers are typed,
the rest have keys. `Holds` is what links a calculator in the middle of it, with
tokens and a number half typed, to the list of tokens entered so far;
`follow_strokes` carries it over a token. So what is typed is what is evaluated:
`entered_expression`.
-/

namespace DeskCalculator.Calculator
open Clock Display DeskCalculator.Expr

namespace Desk

/-- Follows inputs to the last, or to the first that fails. -/
def follow (d : Desk) : List Operation → Except DeskFault Desk
  | [] => .ok d
  | x :: rest =>
    match d.perform x with
    | (.ok _, e) => e.follow rest
    | (.error f, _) => .error f

theorem follow_cons_ok {d e : Desk} {x : Operation} {reply : Reply} {rest : List Operation}
    (h : d.perform x = (.ok reply, e)) : d.follow (x :: rest) = e.follow rest := by
  rw [follow, h]

theorem follow_append_ok {d e : Desk} {xs ys : List Operation} (h : d.follow xs = .ok e) :
    d.follow (xs ++ ys) = e.follow ys := by
  induction xs generalizing d with
  | nil => cases h; rfl
  | cons x rest ih =>
    rw [follow] at h
    rw [List.cons_append, follow]
    split at h
    · exact ih h
    · cases h

end Desk

/-- Digits as they are typed: a single zero, or no zero in front. -/
def isWhole : List Char → Bool
  | [] => false
  | ['0'] => true
  | c :: _ => c != '0'

/-- A number as it is typed: digits, and at most one point behind or among them. -/
def isTyped (cs : List Char) : Bool :=
  isWhole (cs.takeWhile Char.isDigit) &&
    match cs.dropWhile Char.isDigit with
    | [] => true
    | '.' :: places => places.all Char.isDigit
    | _ => false

def stroke (c : Char) : Operation := if c = '.' then .decimal else .digit (String.singleton c)

/-- The inputs that enter a token. Of the operators only the power has no key of its own. -/
def strokes : Token → List Operation
  | .number n => n.text.toList.map stroke
  | .constant c => [.constant c]
  | .operator .add => [.operator .add]
  | .operator .subtract => [.operator .subtract]
  | .operator .multiply => [.operator .multiply]
  | .operator .divide => [.operator .divide]
  | t => [.element (.token t)]

def isNumber : Token → Bool
  | .number _ => true
  | _ => false

/-- Two numbers side by side would be typed as one. -/
def Apart (a b : Token) : Prop := isNumber a = true → isNumber b = false

instance : DecidableRel Apart := fun _ _ => inferInstanceAs (Decidable (_ → _))

/-- What can be entered on a display of the given width. -/
def Fits (width : Int) : Token → Prop
  | .number n => isTyped n.text.toList = true ∧ (n.text.length : Int) ≤ width
  | _ => True

instance (width : Int) : (t : Token) → Decidable (Fits width t)
  | .number _ => inferInstanceAs (Decidable (_ ∧ _))
  | .constant _ | .operator _ | .function _ | .opening | .closing => isTrue trivial

namespace State

/-- The tokens entered so far are those given, the number being typed included,
and the next is to be added to them. -/
structure Holds (s : State) (angle : AngleMode) (ts : List Token) : Prop where
  tokens : s.currentTokens = .ok ts
  advanced : s.mode = .advanced
  angle : s.angle = angle
  calm : s.errorShown = false
  unfinished : s.lastResult = none

/-- Typing shows all that has been typed, and keeps nothing of what was shown before. -/
theorem typed_typed (s : State) (a b : String) : (s.typed a).typed b = s.typed b := rfl

theorem freshen_of_calm {s : State} (h : s.errorShown = false) : s.freshen = s := by
  simp [freshen, h]

/-- What holds of a state, and when it is cleared, holds when it is made fresh. -/
theorem freshen_kept {Kept : State → Prop} {s : State} (clear : Kept s.clear) (h : Kept s) :
    Kept s.freshen := by
  unfold freshen
  split
  · exact clear
  · exact h

theorem freshen_freshen (s : State) : s.freshen.freshen = s.freshen := by
  cases shown : s.errorShown with
  | false => simp [freshen, shown]
  | true => simp [freshen, shown, clear]

theorem freshen_mode (s : State) : s.freshen.mode = s.mode := by
  unfold freshen
  split <;> rfl

@[simp]
theorem freshen_memory (s : State) : s.freshen.memory = s.memory := by
  unfold freshen
  split <;> rfl

theorem showError_freshen (p : Panel) (s : State) : s.freshen.showError p = s.showError p := by
  unfold freshen
  split <;> rfl

theorem freshen_errorShown (s : State) : s.freshen.errorShown = false := by
  unfold freshen
  split
  · rfl
  · rename_i calm
    exact Bool.eq_false_iff.mpr calm

theorem commit_of_currentTokens {s : State} {ts : List Token} (h : s.currentTokens = .ok ts) :
    s.commit = .ok { s with tokens := ts, entry := "" } := by
  unfold currentTokens at h
  unfold commit
  by_cases empty : s.entry = ""
  · simp only [empty, ↓reduceIte, Except.ok.injEq] at h ⊢
    rw [← h, ← empty]
  · simp only [empty, ↓reduceIte] at h ⊢
    cases numeral : Token.ofNumeral s.entry with
    | error f => rw [numeral] at h; cases h
    | ok t =>
      rw [numeral] at h
      cases h
      rfl

theorem constant_isFinite (c : Constant) : c.value.isFinite = true := by
  cases c <;> decide +kernel

/-- Showing the value of a group changes nothing but the display. -/
theorem showGroup_eq (p : Panel) (s : State) :
    ∃ display, s.showGroup p = { s with display } ∧
      (display = s.display ∨ ∃ x, x.isFinite = true ∧ display = p.shown (some x)) := by
  unfold showGroup
  split
  · rename_i inner _
    dsimp only
    cases outcome : evaluate s.angle (inner.map .token) with
    | value x => exact ⟨_, rfl, .inr ⟨x, isFinite_of_evaluate outcome, rfl⟩⟩
    | failure kind message raw => exact ⟨s.display, rfl, .inl rfl⟩
  · exact ⟨s.display, rfl, .inl rfl⟩

/-- The state behind which a token is put. -/
def behind (t : Token) (s : State) : State :=
  match t with
  | .operator _ => s.continued
  | _ => s

theorem continued_display (s : State) : s.continued.display = s.display := by
  unfold continued
  split
  · split <;> rfl
  · rfl

theorem behind_of_unfinished {s : State} (h : s.lastResult = none) (t : Token) :
    s.behind t = s := by
  cases t with
  | operator o => simp [behind, continued, h]
  | _ => rfl

theorem append_of_currentTokens {s : State} {ts : List Token} (h : s.currentTokens = .ok ts)
    (t : Token) : s.append t = .ok { s with tokens := ts ++ [t], entry := "" } := by
  rw [append, commit_of_currentTokens h]
  rfl

/-- A token is put behind the others, and the display keeps its text or gets one
for a numeral or a value. -/
theorem place_token (p : Panel) (t : Token) {s : State} {ts : List Token}
    (h : (s.behind t).currentTokens = .ok ts) :
    ∃ display, s.place p (.token t) =
        .ok { s.behind t with tokens := ts ++ [t], entry := "", display } ∧
      (display = s.display ∨ (∃ n, t = .number n ∧ display = n.text) ∨
        ∃ x, x.isFinite = true ∧ display = p.shown (some x)) := by
  cases t with
  | number n =>
    refine ⟨n.text, ?_, .inr (.inl ⟨n, rfl, rfl⟩)⟩
    rw [place, append_of_currentTokens (s := s) h]
    rfl
  | constant c =>
    refine ⟨p.shown (some c.value), ?_, .inr (.inr ⟨c.value, constant_isFinite c, rfl⟩)⟩
    rw [place, append_of_currentTokens (s := s) h]
    rfl
  | operator o =>
    refine ⟨s.continued.display, ?_, .inl s.continued_display⟩
    rw [place, append_of_currentTokens (s := s.continued) h]
    rfl
  | function f =>
    refine ⟨s.display, ?_, .inl rfl⟩
    rw [place, append_of_currentTokens (s := s) h]
    rfl
  | opening =>
    refine ⟨s.display, ?_, .inl rfl⟩
    rw [place, append_of_currentTokens (s := s) h]
    rfl
  | closing =>
    obtain ⟨display, shown, text⟩ :=
      showGroup_eq p { s with tokens := ts ++ [.closing], entry := "" }
    refine ⟨display, ?_, text.imp_right .inr⟩
    rw [place, append_of_currentTokens (s := s) h]
    exact congrArg Except.ok shown

theorem Holds.element {s : State} {angle : AngleMode} {ts : List Token} (h : s.Holds angle ts)
    (p : Panel) (t : Token) :
    ∃ s', s.element p (.token t) = .ok s' ∧ s'.Holds angle (ts ++ [t]) ∧ s'.entry = "" := by
  have same := behind_of_unfinished h.unfinished t
  obtain ⟨display, placed, -⟩ := place_token p t (by rw [same]; exact h.tokens)
  rw [same] at placed
  refine ⟨{ s with tokens := ts ++ [t], entry := "", display, lastResult := none }, ?_,
    ⟨rfl, h.advanced, h.angle, h.calm, rfl⟩, rfl⟩
  rw [State.element, freshen_of_calm h.calm, placed]
  rfl

theorem Holds.typed {s : State} {angle : AngleMode} {ts : List Token} (h : s.Holds angle ts)
    (empty : s.entry = "") {n : Numeral} (some : n.text ≠ "") :
    (s.typed n.text).Holds angle (ts ++ [.number n]) := by
  refine ⟨?_, h.advanced, h.angle, h.calm, rfl⟩
  have tokens : s.tokens = ts := by
    have := h.tokens
    simpa [currentTokens, empty] using this
  have numeral : Token.ofNumeral n.text = .ok (.number n) := by
    simp [Token.ofNumeral, Numeral.ofText?, n.accepted]
  simp only [currentTokens, State.typed, some, ↓reduceIte, numeral, tokens]
  rfl

end State

namespace Desk
open State

/-- A digit that fits is put behind an entry, except behind a lone zero. -/
theorem follow_digit {d : Desk} {s : State} {c : Char} (calm : s.errorShown = false)
    (digit : c.isDigit = true) (room : (s.entry.length : Int) < d.panel.params.maxLength)
    (zero : s.entry ≠ "0") :
    (d.put s).follow [stroke c] = .ok (d.put (s.typed (s.entry ++ String.singleton c))) := by
  have other : c ≠ '.' := by rintro rfl; cases digit
  have key : isKeypadDigit (String.singleton c) = true := by simp [isKeypadDigit, digit]
  have fits : ¬ d.panel.params.maxLength ≤ (s.entry.length : Int) := by omega
  have typed : s.digit d.panel (String.singleton c) =
      .ok (s.typed (s.entry ++ String.singleton c)) := by
    simp only [State.digit, key, Bool.not_true, Bool.false_eq_true, ↓reduceIte,
      freshen_of_calm calm, fits, zero]
  have pressed : (d.put s).perform (.digit (String.singleton c)) =
      (.ok .nothing, d.put (s.typed (s.entry ++ String.singleton c))) := by
    simp only [perform, put, typed, settle, done]
  simp only [stroke, other, ↓reduceIte]
  exact follow_cons_ok pressed

theorem follow_digits {d : Desk} {s : State} (calm : s.errorShown = false) {e ds : List Char}
    (long : e ≠ [] ∧ e ≠ ['0']) (digits : ∀ c ∈ ds, c.isDigit = true)
    (room : ((e ++ ds).length : Int) ≤ d.panel.params.maxLength) :
    (d.put (s.typed (.ofList e))).follow (ds.map stroke) =
      .ok (d.put (s.typed (.ofList (e ++ ds)))) := by
  induction ds generalizing e with
  | nil => simp [follow]
  | cons c rest ih =>
    have digit : c.isDigit = true := digits c List.mem_cons_self
    have zero : String.ofList e ≠ "0" := by
      intro h
      exact long.2 (by simpa using congrArg String.toList h)
    simp only [List.length_append, List.length_cons] at room
    have first := follow_digit (d := d) (s := s.typed (.ofList e)) calm digit
      (by simp only [State.typed, String.length_ofList]; omega) zero
    have entry : String.ofList e ++ String.singleton c = String.ofList (e ++ [c]) := by
      apply String.toList_injective
      simp
    have longer : e ++ [c] ≠ ['0'] := by
      intro h
      cases e with
      | nil => exact long.1 rfl
      | cons _ _ => simp at h
    have later := ih (e := e ++ [c]) ⟨by simp, longer⟩
      (fun c hc => digits c (List.mem_cons_of_mem _ hc)) (by simp; omega)
    rw [List.map_cons, ← List.singleton_append, follow_append_ok first, typed_typed]
    simp only [State.typed] at entry later ⊢
    rw [entry, later, List.append_assoc, List.singleton_append]

/-- Into an empty entry digits go as they are, unless a zero were to be replaced. -/
theorem follow_whole {d : Desk} {s : State} (calm : s.errorShown = false) (empty : s.entry = "")
    {ds : List Char} (whole : isWhole ds = true) (digits : ∀ c ∈ ds, c.isDigit = true)
    (room : (ds.length : Int) ≤ d.panel.params.maxLength) :
    (d.put s).follow (ds.map stroke) = .ok (d.put (s.typed (.ofList ds))) := by
  cases ds with
  | nil => cases whole
  | cons c rest =>
    simp only [List.length_cons] at room
    have first := follow_digit (d := d) (s := s) calm (digits c List.mem_cons_self)
      (by rw [empty]; simp; omega) (by rw [empty]; decide)
    have entry : s.entry ++ String.singleton c = String.ofList [c] := by
      rw [empty]
      apply String.toList_injective
      simp
    rw [entry] at first
    rw [List.map_cons, ← List.singleton_append, follow_append_ok first]
    by_cases zero : c = '0'
    · have alone : rest = [] := by
        subst zero
        cases rest with
        | nil => rfl
        | cons _ _ => simp [isWhole] at whole
      subst alone
      rfl
    · exact follow_digits calm ⟨by simp, by simp [zero]⟩
        (fun c hc => digits c (List.mem_cons_of_mem _ hc)) (by simp; omega)

theorem follow_point {d : Desk} {s : State} (calm : s.errorShown = false) {ds : List Char}
    (some : ds ≠ []) (digits : ∀ c ∈ ds, c.isDigit = true) :
    (d.put (s.typed (.ofList ds))).follow [stroke '.'] =
      .ok (d.put (s.typed (.ofList (ds ++ ['.'])))) := by
  have point : '.' ∉ ds := fun h => absurd (digits _ h) (by decide)
  have exponent : 'e' ∉ ds := fun h => absurd (digits _ h) (by decide)
  have typed : (s.typed (.ofList ds)).decimal = s.typed (.ofList (ds ++ ['.'])) := by
    have fresh : (s.typed (.ofList ds)).freshen = s.typed (.ofList ds) := freshen_of_calm calm
    have entry : String.ofList (ds ++ ['.']) = String.ofList ds ++ "." := by
      apply String.toList_injective
      simp
    rw [entry, State.decimal, fresh]
    simp [State.typed, some, point, exponent]
  have pressed : (d.put (s.typed (.ofList ds))).perform .decimal =
      (.ok .nothing, d.put (s.typed (.ofList (ds ++ ['.'])))) := by
    simp only [perform, done, put, typed]
  exact follow_cons_ok pressed

/-- A number as it is typed enters itself, and the display shows it. -/
theorem follow_typed {d : Desk} {s : State} (calm : s.errorShown = false) (empty : s.entry = "")
    {cs : List Char} (typed : isTyped cs = true)
    (room : (cs.length : Int) ≤ d.panel.params.maxLength) :
    (d.put s).follow (cs.map stroke) = .ok (d.put (s.typed (.ofList cs))) := by
  have split := List.takeWhile_append_dropWhile (p := Char.isDigit) (l := cs)
  have digits := List.all_eq_true.mp (List.all_takeWhile (p := Char.isDigit) (l := cs))
  obtain ⟨whole, rest⟩ := Bool.and_eq_true_iff.mp typed
  generalize cs.takeWhile Char.isDigit = ds at split digits whole
  rw [← split, List.length_append] at room
  rw [← split, List.map_append]
  have before := follow_whole calm empty whole digits (d := d) (by omega)
  rw [follow_append_ok before]
  revert rest room
  match cs.dropWhile Char.isDigit with
  | [] =>
    intro _ _
    rw [List.append_nil]
    rfl
  | c :: places =>
    intro rest room
    have point : c = '.' := by
      by_cases h : c = '.'
      · exact h
      · simp [h] at rest
    subst point
    have digits' : ∀ c ∈ places, c.isDigit = true := List.all_eq_true.mp rest
    have some : ds ≠ [] := by rintro rfl; cases whole
    have long : ds ++ ['.'] ≠ ['0'] := by
      intro h
      cases ds with
      | nil => exact some rfl
      | cons _ _ => simp at h
    rw [List.map_cons, ← List.singleton_append,
      follow_append_ok (follow_point calm some digits),
      follow_digits calm ⟨by simp, long⟩ digits' (by simp at room ⊢; omega),
      List.append_assoc, List.singleton_append]

/-- One token more: a number is typed, and anything else first ends the number
before it. -/
theorem follow_strokes {d : Desk} {s : State} {angle : AngleMode} {ts : List Token}
    (h : s.Holds angle ts) {t : Token} (apart : isNumber t = true → s.entry = "")
    (fits : Fits d.panel.params.maxLength t) :
    ∃ s', (d.put s).follow (strokes t) = .ok (d.put s') ∧ s'.Holds angle (ts ++ [t]) ∧
      (isNumber t = false → s'.entry = "") := by
  have key (x : Operation)
      (pressed : (d.put s).perform x = d.settle (s.element d.panel (.token t))) :
      ∃ s', (d.put s).follow [x] = .ok (d.put s') ∧ s'.Holds angle (ts ++ [t]) ∧
        (isNumber t = false → s'.entry = "") := by
    obtain ⟨s', done, holds, empty⟩ := h.element d.panel t
    have answered : (d.put s).perform x = (.ok .nothing, d.put s') := by
      rw [pressed, done]
      rfl
    exact ⟨s', follow_cons_ok answered, holds, fun _ => empty⟩
  have press (o : BasicOperator) (same : t = .operator o.symbol) :
      (d.put s).perform (.operator o) = d.settle (s.element d.panel (.token t)) := by
    simp only [perform, put, State.press, h.advanced, same]
    rfl
  cases t with
  | number n =>
    obtain ⟨form, room⟩ := fits
    have entered := follow_typed h.calm (apart rfl) form room
    have some : n.text ≠ "" := by
      intro empty
      rw [empty] at form
      cases form
    rw [String.ofList_toList] at entered
    exact ⟨_, entered, h.typed (apart rfl) some, fun other => nomatch other⟩
  | constant c =>
    apply key
    simp only [perform, put, State.constant, freshen_of_calm h.calm, h.advanced]
    rfl
  | operator o =>
    cases o with
    | add => exact key _ (press .add rfl)
    | subtract => exact key _ (press .subtract rfl)
    | multiply => exact key _ (press .multiply rfl)
    | divide => exact key _ (press .divide rfl)
    | power => exact key _ rfl
  | function f => exact key _ rfl
  | opening => exact key _ rfl
  | closing => exact key _ rfl

theorem follow_expression {d : Desk} {s : State} {angle : AngleMode} {before ts : List Token}
    (h : s.Holds angle before) (apart : ∀ t ∈ ts.head?, isNumber t = true → s.entry = "")
    (chain : ts.IsChain Apart) (fits : ∀ t ∈ ts, Fits d.panel.params.maxLength t) :
    ∃ s', (d.put s).follow (ts.flatMap strokes) = .ok (d.put s') ∧
      s'.Holds angle (before ++ ts) := by
  induction ts generalizing s before with
  | nil => exact ⟨s, rfl, by rw [List.append_nil]; exact h⟩
  | cons t rest ih =>
    obtain ⟨next, chain⟩ := List.isChain_cons.mp chain
    obtain ⟨s', entered, holds, empty⟩ :=
      follow_strokes h (apart t rfl) (fits t List.mem_cons_self)
    have ended : ∀ u ∈ rest.head?, isNumber u = true → s'.entry = "" := by
      intro u hu number
      apply empty
      cases typed : isNumber t with
      | false => rfl
      | true => exact absurd (next u hu typed) (by simp [number])
    obtain ⟨s'', later, all⟩ :=
      ih holds ended chain fun t ht => fits t (List.mem_cons_of_mem _ ht)
    refine ⟨s'', ?_, by rw [List.append_cons]; exact all⟩
    rw [List.flatMap_cons, follow_append_ok entered, later]

/-- Without a history the end of a calculation is its outcome on the display. -/
theorem equals_of_holds {d : Desk} {angle : AngleMode} {ts : List Token}
    (h : d.state.Holds angle ts) (some : ts ≠ []) (unrecorded : d.history = none) :
    d.perform .equals = (.ok (.outcome (.some (evaluate angle (ts.map .token)))),
      d.put (d.state.conclude d.panel (evaluate angle (ts.map .token)))) := by
  have calculation : d.state.calculation =
      .ok (.some ⟨Token.line ts, evaluate angle (ts.map .token)⟩) := by
    simp only [State.calculation, h.advanced, h.tokens, valueOf, h.angle, bind, Except.bind,
      pure, Except.pure, some, ↓reduceIte]
  simp only [perform, equals, calculation, record, unrecorded]

end Desk

/-- **What is typed is what is evaluated.** Entering the tokens of an expression,
well formed or not, shows them as they are; equals evaluates just them and shows
their outcome. -/
theorem entered_expression (p : Panel) (angle : AngleMode) (now : Instant) (ts : List Token)
    (some : ts ≠ []) (chain : ts.IsChain Apart) (fits : ∀ t ∈ ts, Fits p.params.maxLength t) :
    ∃ d, (Desk.start p angle .advanced none now).follow (ts.flatMap strokes) = .ok d ∧
      d.state.currentTokens = .ok ts ∧
      d.state.expressionLine = .ok (Token.line ts) ∧
      (d.perform .equals).1 = .ok (.outcome (.some (evaluate angle (ts.map .token)))) ∧
      (d.perform .equals).2.state.display = p.render (evaluate angle (ts.map .token)) := by
  have new : (Desk.start p angle .advanced none now).state.Holds angle [] :=
    ⟨rfl, rfl, rfl, rfl, rfl⟩
  obtain ⟨s, entered, holds⟩ := Desk.follow_expression (d := .start p angle .advanced none now)
    new (fun _ _ _ => rfl) chain fits
  rw [List.nil_append] at holds
  have equals := Desk.equals_of_holds (d := (Desk.start p angle .advanced none now).put s)
    holds some rfl
  refine ⟨_, entered, holds.tokens, ?_, by rw [equals], by rw [equals]; rfl⟩
  have tokens : s.currentTokens = .ok ts := holds.tokens
  simp only [Desk.put, State.expressionLine, tokens]
  rfl

/-- The ill-formed expression `( 0.50 * ) ^ 12. sin pi 7`. -/
def scrambled : List Token :=
  [.opening, .number ⟨"0.50", by decide⟩, .operator .multiply, .closing, .operator .power,
    .number ⟨"12.", by decide⟩, .function .sin, .constant .pi, .number ⟨"7", by decide⟩]

theorem entered_scrambled : scrambled ≠ [] ∧ scrambled.IsChain Apart ∧
    (∀ t ∈ scrambled, Fits 16 t) ∧
    ∃ d, (Desk.start .standard .degrees .advanced none ⟨0⟩).follow (scrambled.flatMap strokes) = .ok d ∧
      d.state.currentTokens = .ok scrambled ∧
      d.state.expressionLine = .ok "( 0.50 * ) ^ 12. sin pi 7" ∧
      (d.perform .equals).1 = .ok (.outcome (.some
        (.failure .stackUnderflow (.some "Operator * needs two operands") none))) ∧
      (d.perform .equals).2.state.display = "Error" := by
  have chain : scrambled.IsChain Apart := by decide
  have fits : ∀ t ∈ scrambled, Fits 16 t := by decide
  have outcome : evaluate .degrees (scrambled.map .token) =
      .failure .stackUnderflow (.some "Operator * needs two operands") none := by decide +kernel
  have line : Token.line scrambled = "( 0.50 * ) ^ 12. sin pi 7" := by decide +kernel
  have entered := entered_expression .standard .degrees ⟨0⟩ scrambled (by decide) chain fits
  rw [outcome, line] at entered
  exact ⟨by decide, chain, fits, entered⟩

end DeskCalculator.Calculator
