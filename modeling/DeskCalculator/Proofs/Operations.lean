import DeskCalculator.Proofs.Effect
import DeskCalculator.Proofs.Usable

/-!
# What each operation can do

One lemma an operation, with the conditions under which it does one thing or another.
A token is refused where the text in front of it is no numeral; `Refuses` says when
that text is not what is being typed but the last result.
-/

namespace DeskCalculator.Calculator
open Display DeskCalculator.Expr Number Numeral

theorem eq_singleton_of_isKeypadDigit {d : String} (h : isKeypadDigit d = true) :
    ∃ c : Char, c.isDigit = true ∧ d = String.singleton c := by
  unfold isKeypadDigit at h
  split at h
  · rename_i c same
    refine ⟨c, h, ?_⟩
    apply String.toList_injective
    rw [same, String.toList_singleton]
  · cases h

namespace State

/-- What is being typed, if anything is, is a numeral. -/
def Readable (s : State) : Prop := s.entry = "" ∨ accepts s.entry.toList = true

instance (s : State) : Decidable s.Readable := inferInstanceAs (Decidable (_ ∨ _))

/-- The text from which an operator would continue. -/
def resumed? (s : State) : Option String :=
  if s.errorShown = false ∧ s.tokens = [] ∧ s.entry = "" then s.lastResult else none

/-- An operator cannot continue from the last result. -/
def Refuses (s : State) : Effect → Prop
  | .element (.token (.operator _)) => ∃ r, s.resumed? = some r ∧ accepts r.toList = false
  | _ => False

theorem resumed?_eq_some {s : State} {r : String} (h : s.resumed? = some r) :
    s.errorShown = false ∧ s.tokens = [] ∧ s.entry = "" ∧ s.lastResult = some r := by
  unfold resumed? at h
  split at h
  · rename_i open_
    exact ⟨open_.1, open_.2.1, open_.2.2, h⟩
  · cases h

theorem currentTokens_of_readable {s : State} (h : s.Readable) :
    ∃ ts, s.currentTokens = .ok ts := by
  unfold currentTokens
  split
  · exact ⟨_, rfl⟩
  · rename_i filled
    rw [ofNumeral_of_accepts (h.resolve_left filled)]
    exact ⟨_, rfl⟩

theorem currentTokens_of_not_readable {s : State} (h : ¬ s.Readable) :
    s.currentTokens = .error (.notNumeral s.entry) := by
  obtain ⟨filled, refused⟩ := not_or.mp h
  have none : Token.ofNumeral s.entry = .error (.notNumeral s.entry) := by
    simp [Token.ofNumeral, Numeral.ofText?, refused]
  rw [currentTokens, if_neg filled, none]
  rfl

/-! Typing -/

theorem digit_cases (p : Panel) (d : String) (s : State) :
    left (s.digit p d) = s ∨ left (s.digit p d) = s.freshen ∨
      ∃ c text, c.isDigit = true ∧ s.freshen.entry.length < p.params.maxLength ∧
        left (s.digit p d) = s.freshen.typed text ∧
        (text = String.singleton c ∨ text = s.freshen.entry ++ String.singleton c) := by
  unfold State.digit
  cases key : isKeypadDigit d with
  | false => exact .inl rfl
  | true =>
    obtain ⟨c, digit, rfl⟩ := eq_singleton_of_isKeypadDigit key
    simp only [Bool.not_true, Bool.false_eq_true, ↓reduceIte]
    split
    · exact .inr (.inl rfl)
    · rename_i room
      have less := Int.not_le.mp room
      split
      · exact .inr (.inr ⟨c, _, digit, less, rfl, .inl rfl⟩)
      · exact .inr (.inr ⟨c, _, digit, less, rfl, .inr rfl⟩)

/-- What typing establishes, and starting from scratch keeps, a digit keeps. -/
theorem digit_kept {Kept : State → Prop} {s : State} (h : Kept s) (clear : Kept s.clear)
    (typed : ∀ text, Kept (s.freshen.typed text)) (p : Panel) (d : String) :
    Kept (left (s.digit p d)) := by
  rcases s.digit_cases p d with same | fresh | ⟨c, text, -, -, same, -⟩
  · rw [same]
    exact h
  · rw [fresh]
    exact freshen_kept clear h
  · rw [same]
    exact typed text

theorem decimal_cases (s : State) :
    ∃ text, s.decimal = s.freshen.typed text ∧
      (s.freshen.entry = "" ∧ text = "0." ∨ s.freshen.entry ≠ "" ∧
        (text = s.freshen.entry ∧ ('.' ∈ text.toList ∨ 'e' ∈ text.toList) ∨
          text = s.freshen.entry ++ "." ∧ '.' ∉ s.freshen.entry.toList)) := by
  unfold State.decimal
  dsimp only
  split
  · rename_i empty
    exact ⟨_, rfl, .inl ⟨empty, rfl⟩⟩
  · rename_i filled
    split
    · rename_i marked
      exact ⟨_, rfl, .inr ⟨filled, .inl ⟨rfl, by simpa using marked⟩⟩⟩
    · rename_i pointless
      refine ⟨_, rfl, .inr ⟨filled, .inr ⟨rfl, ?_⟩⟩⟩
      intro point
      exact pointless (by simp [point])

/-- Taking back a character leaves nothing where it would leave a lone sign. -/
theorem shortened_cases {P : List Char → Prop} (lone : ¬ P ['-']) {text : String}
    (h : P text.toList.dropLast ∨ ∃ negative, text.toList.dropLast = sign negative) :
    shortened text = "" ∨ P (shortened text).toList := by
  unfold shortened
  dsimp only
  rcases h with kept | ⟨negative, rest⟩
  · right
    split
    · rename_i minus
      have same := congrArg String.toList minus
      rw [String.toList_ofList] at same
      rw [same] at kept
      exact absurd kept lone
    · rw [String.toList_ofList]
      exact kept
  · left
    rw [rest]
    cases negative <;> rfl

theorem backspace_cases (s : State) :
    s.entry ≠ "" ∧ s.backspace = { s with
        entry := shortened s.entry
        display := if shortened s.entry = "" then "0" else shortened s.entry } ∨
      s.entry = "" ∧ s.tokens ≠ [] ∧
        s.backspace = { s with tokens := s.tokens.dropLast, display := "0" } ∨
      s.entry = "" ∧ s.tokens = [] ∧ s.backspace = s := by
  unfold State.backspace
  by_cases empty : s.entry = ""
  · right
    by_cases none : s.tokens = []
    · right
      refine ⟨empty, none, ?_⟩
      rw [if_neg (not_not.mpr empty), if_neg (not_not.mpr none)]
    · left
      refine ⟨empty, none, ?_⟩
      rw [if_neg (not_not.mpr empty), if_pos none]
  · left
    exact ⟨empty, if_pos empty⟩

/-! The last operand -/

theorem operand_group_filled {s : State} {before inner : List Token}
    (h : s.operand = .group before inner) : s.tokens ≠ [] := by
  intro empty
  unfold State.operand at h
  rw [if_pos (.inr empty)] at h
  split at h <;> cases h

theorem operand_value_empty {s : State} {before : List Token} {x : Binary64}
    (h : s.operand = .value before x) (empty : s.tokens = []) : before = [] := by
  unfold State.operand at h
  rw [if_pos (.inr empty)] at h
  split at h
  · cases h
    exact empty
  · cases h

/-- A group is wrapped if it has a value then. -/
theorem wrap_cases (p : Panel) (before wrapped : List Token) (s : State) :
    (∃ x, x.isFinite = true ∧ (s.valueOf wrapped).ok = true ∧ s.wrap p before wrapped =
        { s with tokens := before ++ wrapped, display := p.shown (some x) }) ∨
      (s.valueOf wrapped).ok = false ∧ s.wrap p before wrapped = s.showError p := by
  unfold State.wrap
  dsimp only
  cases value : s.valueOf wrapped with
  | value x => exact .inl ⟨x, isFinite_of_evaluate value, rfl, rfl⟩
  | failure kind message raw => exact .inr ⟨rfl, rfl⟩

/-- A percentage wraps a group and takes the place of a value. -/
theorem percent_cases (p : Panel) (s : State) :
    (∃ before inner, s.operand = .group before inner ∧
        s.percent p = s.wrap p before (percentage inner)) ∨
      (∃ before x, s.operand = .value before x ∧
        s.percent p = s.replace p before (x / .ofInt 100)) ∨
      s.operand = .absent ∧ s.percent p = s := by
  unfold percent
  cases s.operand with
  | group before inner => exact .inl ⟨before, inner, rfl, rfl⟩
  | value before x => exact .inr (.inl ⟨before, x, rfl, rfl⟩)
  | absent => exact .inr (.inr ⟨rfl, rfl⟩)

/-- A function wraps a group. Its value takes the place of a value, unless that would show
as the error. -/
theorem unary_cases (p : Panel) (f : Function) (s : State) :
    (∃ before inner, s.operand = .group before inner ∧
        s.unary p f = s.wrap p before (applied f inner)) ∨
      (∃ before x, s.operand = .value before x ∧
        (p.shown (some (f.apply s.angle x)) = p.params.errorText ∧
            s.unary p f = s.showError p ∨
          p.shown (some (f.apply s.angle x)) ≠ p.params.errorText ∧
            s.unary p f = s.replace p before (f.apply s.angle x))) ∨
      s.operand = .absent ∧ s.unary p f = s := by
  unfold unary
  cases s.operand with
  | group before inner => exact .inl ⟨before, inner, rfl, rfl⟩
  | value before x =>
    refine .inr (.inl ⟨before, x, rfl, ?_⟩)
    by_cases error : p.shown (some (f.apply s.angle x)) = p.params.errorText
    · exact .inl ⟨error, if_pos error⟩
    · exact .inr ⟨error, if_neg error⟩
  | absent => exact .inr (.inr ⟨rfl, rfl⟩)

/-! The memory, the modes and past calculations -/

/-- The memory is entered, unless it would show as the error. -/
theorem memoryRecall_cases (p : Panel) (s : State) :
    p.shown (some s.memory) = p.params.errorText ∧ s.memoryRecall p = s.showError p ∨
      p.shown (some s.memory) ≠ p.params.errorText ∧ s.memoryRecall p =
        { s.freshen with
          entry := plain s.memory, display := p.shown (some s.memory), waiting := false } := by
  unfold memoryRecall
  dsimp only
  rw [freshen_memory, showError_freshen]
  by_cases error : p.shown (some s.memory) = p.params.errorText
  · exact .inl ⟨error, if_pos error⟩
  · exact .inr ⟨error, if_neg error⟩

theorem setMode_cases (m : Mode) (s : State) :
    m = s.mode ∧ s.setMode m = s ∨ m ≠ s.mode ∧ s.setMode m = { s.clear with mode := m } := by
  unfold setMode
  by_cases same : m = s.mode
  · refine .inl ⟨same, ?_⟩
    rw [if_pos same, same]
  · refine .inr ⟨same, ?_⟩
    rw [if_neg same]

/-- A past expression replaces everything, if all of it can be read. -/
theorem restore_cases (p : Panel) (expression result : String) (s : State) :
    (∃ tokens, Token.parseAll expression = .ok tokens ∧ left (s.restore p expression result) =
        { s.clear with
          tokens, display := result, errorShown := result = p.params.errorText }) ∨
      left (s.restore p expression result) = s := by
  unfold restore
  cases Token.parseAll expression with
  | ok tokens => exact .inl ⟨tokens, rfl, rfl⟩
  | error f => exact .inr rfl

/-! Tokens -/

theorem behind_of_resumed {s : State} {r : String} (h : s.resumed? = some r) (o : Operator) :
    s.freshen.behind (.operator o) = { s with entry := r } := by
  obtain ⟨calm, tokens, entry, result⟩ := resumed?_eq_some h
  rw [freshen_of_calm calm, behind, continued, result]
  simp [tokens, entry]

theorem behind_of_not_resumed {s : State} (h : s.resumed? = none) (o : Operator) :
    s.freshen.behind (.operator o) = s.freshen := by
  unfold behind continued
  cases result : s.freshen.lastResult with
  | none => rfl
  | some r =>
    dsimp only
    apply if_neg
    rintro ⟨tokens, entry⟩
    cases shown : s.errorShown with
    | true => simp [freshen, shown, clear] at result
    | false =>
      rw [freshen_of_calm shown] at tokens entry result
      simp [resumed?, shown, tokens, entry, result] at h

/-- Behind a token nothing but the number being typed may change, and that only
into the last result. -/
theorem behind_eq (t : Token) (s : State) :
    ∃ entry, s.behind t = { s with entry } ∧ (entry = s.entry ∨ s.lastResult = some entry) := by
  have unchanged : ∃ entry, s = { s with entry } ∧
      (entry = s.entry ∨ s.lastResult = some entry) := ⟨s.entry, rfl, .inl rfl⟩
  cases t with
  | operator o =>
    rw [behind, continued]
    split
    · rename_i r result
      split
      · exact ⟨r, rfl, .inr result⟩
      · exact unchanged
    · exact unchanged
  | _ => exact unchanged

theorem append_of_error {s : State} {f : Expr.Fault} (h : s.currentTokens = .error f)
    (t : Token) : s.append t = .error ⟨f, s⟩ := by
  unfold currentTokens at h
  split at h
  · cases h
  · rename_i filled
    cases numeral : Token.ofNumeral s.entry with
    | ok t => rw [numeral] at h; cases h
    | error g =>
      rw [numeral] at h
      cases h
      simp only [append, commit, filled, ↓reduceIte, numeral, bind, Except.bind]

theorem place_of_error (p : Panel) (t : Token) {s : State} {f : Expr.Fault}
    (h : (s.behind t).currentTokens = .error f) :
    s.place p (.token t) = .error ⟨f, s.behind t⟩ := by
  cases t with
  | operator o => exact append_of_error h _
  | function g => exact append_of_error (s := s) h _
  | opening => exact append_of_error (s := s) h _
  | number n => rw [place, append_of_error (s := s) h]; rfl
  | constant c => rw [place, append_of_error (s := s) h]; rfl
  | closing => rw [place, append_of_error (s := s) h]; rfl

/-- The text in front of a token is what is being typed, or the last result. -/
theorem behind_cases (s : State) (t : Token) :
    s.freshen.behind t = s.freshen ∧ (∀ o, t = .operator o → s.resumed? = none) ∨
      ∃ o r, t = .operator o ∧ s.resumed? = some r ∧
        s.freshen.behind t = { s with entry := r } := by
  cases t with
  | operator o =>
    cases resumed : s.resumed? with
    | none => exact .inl ⟨behind_of_not_resumed resumed o, fun _ _ => rfl⟩
    | some r => exact .inr ⟨o, r, rfl, rfl, behind_of_resumed resumed o⟩
  | _ => exact .inl ⟨rfl, fun _ same => by cases same⟩

theorem not_refuses_of_fresh {s : State} {t : Token}
    (fresh : ∀ o, t = .operator o → s.resumed? = none) : ¬ s.Refuses (.element (.token t)) := by
  intro refuses
  cases t with
  | operator o =>
    obtain ⟨r, resumed, -⟩ := refuses
    rw [fresh o rfl] at resumed
    cases resumed
  | _ => exact refuses

theorem element_of_not_readable (p : Panel) {t : Token} {s : State}
    (h : ¬ (s.freshen.behind t).Readable) :
    left (s.element p (.token t)) = s.freshen.behind t := by
  rw [State.element, place_of_error p t (currentTokens_of_not_readable h)]
  rfl

/-- A token is placed, or the state in front of it is left: as it was, or with the last
result as the text that is refused. -/
theorem element_cases (p : Panel) (x : Element) {s : State}
    (legible : ∀ r, s.lastResult = some r → r ≠ "") :
    (∃ t ts display, x = .token t ∧ ¬ s.Refuses (.element x) ∧
        left (s.element p x) =
          { s.freshen with tokens := ts ++ [t], entry := "", display, lastResult := none } ∧
        (display = s.freshen.display ∨ (∃ n, t = .number n ∧ display = n.text) ∨
          ∃ y, y.isFinite = true ∧ display = p.shown (some y))) ∨
      left (s.element p x) = s.freshen ∧ ¬ s.Refuses (.element x) ∨
      ∃ r, s.resumed? = some r ∧ accepts r.toList = false ∧ s.Refuses (.element x) ∧
        left (s.element p x) = { s with entry := r } := by
  cases x with
  | stray text => exact .inr (.inl ⟨rfl, id⟩)
  | token t =>
    have origin := s.behind_cases t
    by_cases readable : (s.freshen.behind t).Readable
    · left
      obtain ⟨ts, tokens⟩ := currentTokens_of_readable readable
      obtain ⟨display, placed, text⟩ := place_token p t tokens
      obtain ⟨entry, same, -⟩ := behind_eq t s.freshen
      refine ⟨t, ts, display, rfl, ?_, ?_, text⟩
      · rcases origin with ⟨-, fresh⟩ | ⟨o, r, rfl, resumed, behind⟩
        · exact not_refuses_of_fresh fresh
        · rintro ⟨r', resumed', refused⟩
          rw [resumed] at resumed'
          cases resumed'
          rw [behind] at readable
          obtain ⟨-, -, -, result⟩ := resumed?_eq_some resumed
          have accepted := readable.resolve_left (legible r result)
          rw [refused] at accepted
          cases accepted
      · rw [State.element, placed, same]
        rfl
    · right
      have stopped := element_of_not_readable p readable
      rcases origin with ⟨behind, fresh⟩ | ⟨o, r, rfl, resumed, behind⟩
      · exact .inl ⟨stopped.trans behind, not_refuses_of_fresh fresh⟩
      · rw [behind] at readable
        have refused : accepts r.toList = false :=
          Bool.eq_false_iff.mpr fun accepted => readable (.inr accepted)
        exact .inr ⟨r, resumed, refused, ⟨r, resumed, refused⟩, stopped.trans behind⟩

/-- What is being typed goes as a token if it is one, and without it the last token goes. -/
theorem pop_cases (p : Panel) (s : State) :
    s.entry = "" ∧ Effect.pop.apply p s = { s with tokens := s.tokens.dropLast } ∨
      s.entry ≠ "" ∧ s.Readable ∧ Effect.pop.apply p s = { s with entry := "" } ∨
      ¬ s.Readable ∧ Effect.pop.apply p s = s := by
  by_cases empty : s.entry = ""
  · left
    refine ⟨empty, ?_⟩
    simp [Effect.apply, State.pop, empty]
  · right
    by_cases readable : s.Readable
    · left
      refine ⟨empty, readable, ?_⟩
      simp [Effect.apply, State.pop, empty, ofNumeral_of_accepts (readable.resolve_left empty)]
    · right
      refine ⟨readable, ?_⟩
      have refused : accepts s.entry.toList = false :=
        Bool.eq_false_iff.mpr fun accepted => readable (.inr accepted)
      simp [Effect.apply, State.pop, empty, Token.ofNumeral, Numeral.ofText?, refused]

/-! Operators of basic mode -/

/-- The operand before is folded with the second, and another operator is pending. -/
def folded (p : Panel) (q : BasicOperator) (a b : Binary64) (o : BasicOperator) (s : State) :
    State :=
  if p.shown (some (q.fold a b)) = p.params.errorText then s.showError p
  else { s with
    display := p.shown (some (q.fold a b))
    first := some (q.fold a b)
    pending := some o
    waiting := true
    entry := "" }

/-- An operator pressed does nothing, it takes the place of another, or an operand is
there for it, which is the first one or is folded with that. -/
theorem press_cases (p : Panel) (o : BasicOperator) {s : State}
    (begun : ∀ q, s.pending = some q → ∃ a, s.first = some a) :
    (s.errorShown = true ∨ s.currentValue? = none) ∧ s.pressBasic p o = s ∨
      (∃ q, s.pending = some q ∧ s.waiting = true ∧
        s.pressBasic p o = { s with pending := some o }) ∨
      s.errorShown = false ∧ ∃ x, s.currentValue? = some x ∧
        (s.pending = none ∧ s.pressBasic p o =
            { s with first := some x, pending := some o, waiting := true, entry := "" } ∨
          ∃ q a, s.pending = some q ∧ s.first = some a ∧ s.waiting = false ∧
            s.pressBasic p o = s.folded p q a x o) := by
  by_cases shown : s.errorShown = true
  · exact .inl ⟨.inl shown, if_pos shown⟩
  · rw [pressBasic, if_neg shown]
    by_cases replaced : (s.pending.isSome && s.waiting) = true
    · obtain ⟨some, waiting⟩ := Bool.and_eq_true_iff.mp replaced
      obtain ⟨q, pending⟩ := Option.isSome_iff_exists.mp some
      exact .inr (.inl ⟨q, pending, waiting, if_pos replaced⟩)
    · rw [if_neg replaced]
      cases value : s.currentValue? with
      | none => exact .inl ⟨.inr rfl, rfl⟩
      | some x =>
        refine .inr (.inr ⟨Bool.eq_false_iff.mpr shown, x, rfl, ?_⟩)
        cases pending : s.pending with
        | none => exact .inl ⟨rfl, by simp [fold, pending]⟩
        | some q =>
          obtain ⟨a, first⟩ := begun q pending
          have entered : s.waiting = false := by simpa [pending] using replaced
          exact .inr ⟨q, a, rfl, first, entered, by simp [fold, folded, pending, first]⟩

/-! Results -/

theorem isFinite_of_calculation {s : State} {c : Calculation} (h : s.calculation = .ok (some c))
    {x : Binary64} (value : c.outcome = .value x) : x.isFinite = true := by
  unfold calculation at h
  cases mode : s.mode with
  | basic =>
    rw [mode] at h
    have basic : s.basicCalculation = some c := Except.ok.inj h
    obtain ⟨o, -, basic⟩ := Option.bind_eq_some_iff.mp basic
    obtain ⟨a, -, basic⟩ := Option.bind_eq_some_iff.mp basic
    obtain ⟨b, -, basic⟩ := Option.bind_eq_some_iff.mp basic
    cases basic
    exact isFinite_of_ofValue value
  | advanced =>
    rw [mode] at h
    cases tokens : s.currentTokens with
    | error f => rw [tokens] at h; cases h
    | ok ts =>
      rw [tokens] at h
      have found := Except.ok.inj h
      split at found
      · cases found
      · cases found
        exact isFinite_of_evaluate value

/-- Equals does nothing, or it concludes a calculation with a finite value or a failure. -/
theorem finish_cases (p : Panel) (s : State) :
    Effect.finish.apply p s = s ∨ ∃ o, (∀ x, o = .value x → x.isFinite = true) ∧
      Effect.finish.apply p s = s.conclude p o := by
  cases calculated : s.calculation with
  | error f => exact .inl (by simp only [Effect.apply, calculated])
  | ok found =>
    cases found with
    | none => exact .inl (by simp only [Effect.apply, calculated])
    | some c =>
      refine .inr ⟨c.outcome, fun x => isFinite_of_calculation calculated, ?_⟩
      simp only [Effect.apply, calculated]

end State
end DeskCalculator.Calculator
