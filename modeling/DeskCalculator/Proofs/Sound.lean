import DeskCalculator.Proofs.Operations

/-!
# Texts that the keypad leaves

`State.Sound` says what a calculator in advanced mode holds while only the keypad
works on it: what is being typed, what shows the last result and what is on the
display stands for a finite number, or else for an infinity, and that only if the
display has shown one. Each operation of the keypad keeps it. A token is refused
just where the text in front of it is the name of an infinity: `Sound.element`.
-/

namespace DeskCalculator.Calculator
open Clock Display DeskCalculator.Expr Number Numeral

namespace State

variable {seen : Prop}

/-- Of what has been typed nothing is left, or what could have been typed. -/
theorem typed_shortened {text : String} (h : Typed seen text) :
    shortened text = "" ∨ Typed seen (shortened text) := by
  refine shortened_cases (P := fun cs => Moderate cs ∨ seen ∧ namesInfinity cs = true) ?_ ?_
  · rintro (moderate | ⟨-, named⟩)
    · exact absurd moderate.accepts (by decide)
    · exact absurd named (by decide)
  · rcases h with h | ⟨infinite, h⟩
    · exact h.dropLast.imp_left .inl
    · exact (namesInfinity_dropLast h).imp_left fun named => .inr ⟨infinite, named⟩

/-- The texts and tokens of a calculator in advanced mode that only the keypad has
worked on. -/
structure Sound (seen : Prop) (s : State) : Prop where
  advanced : s.mode = .advanced
  tokens : AllFinite s.tokens
  entry : s.entry = "" ∨ Typed seen s.entry
  result : ∀ r ∈ s.lastResult, Lasting seen r
  display : Definite seen s.display

/-- A number past the brink counts as seen when it is on the display. -/
def Noted (seen : Prop) (s : State) : Prop := Soaring s.display → seen

theorem sound_clear {s : State} (h : s.mode = .advanced) : s.clear.Sound seen :=
  ⟨h, allFinite_nil, .inl rfl, by simp [clear], definite_zero⟩

theorem Sound.freshen {s : State} (h : s.Sound seen) : s.freshen.Sound seen := by
  unfold State.freshen
  split
  · exact sound_clear h.advanced
  · exact h

theorem Sound.clearEntry {s : State} (h : s.Sound seen) : s.clearEntry.Sound seen :=
  ⟨h.advanced, h.tokens, .inl rfl, h.result, definite_zero⟩

theorem Sound.memoryClear {s : State} (h : s.Sound seen) : s.memoryClear.Sound seen :=
  ⟨h.advanced, h.tokens, h.entry, h.result, h.display⟩

theorem Sound.toggleAngle {s : State} (h : s.Sound seen) : s.toggleAngle.Sound seen :=
  ⟨h.advanced, h.tokens, h.entry, h.result, h.display⟩

theorem Sound.typed {s : State} (h : s.Sound seen) {text : String} (typed : Typed seen text) :
    (s.typed text).Sound seen :=
  ⟨h.advanced, h.tokens, .inr typed, by simp [State.typed], typed.lasting.definite⟩

/-! Typing -/

theorem Sound.digit {s : State} (h : s.Sound seen) {d : String} (key : isKeypadDigit d = true) :
    ∃ s', s.digit .standard d = .ok s' ∧ s'.Sound seen := by
  obtain ⟨c, digit, rfl⟩ := eq_singleton_of_isKeypadDigit key
  have fresh := h.freshen
  simp only [State.digit, key, Bool.not_true, Bool.false_eq_true, ↓reduceIte]
  split
  · exact ⟨_, rfl, fresh⟩
  · rename_i room
    have short : s.freshen.entry.length < 16 := Int.ofNat_lt.mp (Int.not_le.mp room)
    refine ⟨_, rfl, fresh.typed ?_⟩
    split
    · exact typed_digit digit
    · rcases fresh.entry with empty | typed
      · rw [empty, String.empty_append]
        exact typed_digit digit
      · exact typed.digit digit short

theorem Sound.decimal {s : State} (h : s.Sound seen) : s.decimal.Sound seen := by
  have fresh := h.freshen
  obtain ⟨text, typed, ⟨-, rfl⟩ | ⟨filled, ⟨rfl, -⟩ | ⟨rfl, pointless⟩⟩⟩ := s.decimal_cases
  · rw [typed]
    exact fresh.typed typed_zero_point
  · rw [typed]
    exact fresh.typed (fresh.entry.resolve_left filled)
  · rw [typed]
    exact fresh.typed ((fresh.entry.resolve_left filled).point pointless)

theorem Sound.backspace {s : State} (h : s.Sound seen) : s.backspace.Sound seen := by
  rcases s.backspace_cases with ⟨filled, back⟩ | ⟨-, -, back⟩ | ⟨-, -, back⟩
  · rw [back]
    rcases typed_shortened (h.entry.resolve_left filled) with empty | typed
    · exact ⟨h.advanced, h.tokens, .inl empty, h.result, by simpa [empty] using definite_zero⟩
    · exact ⟨h.advanced, h.tokens, .inr typed, h.result,
        by simpa [typed.lasting.legible.ne_empty] using typed.lasting.definite⟩
  · rw [back]
    exact ⟨h.advanced, h.tokens.subset (List.dropLast_subset _), h.entry, h.result,
      definite_zero⟩
  · rw [back]
    exact h

/-! Operations on the last operand -/

theorem Sound.showError {s : State} (h : s.Sound seen) : (s.showError .standard).Sound seen := by
  have clear : s.clear.Sound seen := sound_clear h.advanced
  exact ⟨h.advanced, clear.tokens, .inl rfl, clear.result, bounded_error.definite⟩

theorem Sound.currentValue {s : State} (h : s.Sound seen) {x : Binary64}
    (value : s.currentValue? = some x) : x.Usable seen := by
  unfold currentValue? at value
  split at value
  · exact h.display x value
  · rename_i filled
    exact (h.entry.resolve_left filled).lasting.definite x value

/-- The operand at the end of an expression consists of its tokens and values. -/
theorem trailing_value {ts before : List Token} {x : Binary64}
    (h : trailing ts = .value before x) (finite : AllFinite ts) :
    before ⊆ ts ∧ x.isFinite = true := by
  unfold trailing at h
  split at h
  · rename_i n last
    cases h
    exact ⟨List.dropLast_subset _, finite n (List.mem_of_getLast? last)⟩
  · rename_i c last
    cases h
    exact ⟨List.dropLast_subset _, constant_isFinite c⟩
  · split at h <;> cases h
  · cases h

theorem trailing_group {ts before inner : List Token} (h : trailing ts = .group before inner) :
    before ⊆ ts ∧ inner ⊆ ts := by
  unfold trailing at h
  split at h
  · cases h
  · cases h
  · split at h
    · cases h
      exact ⟨List.take_subset _ _, List.drop_subset _ _⟩
    · cases h
  · cases h

theorem Sound.operand_value {s : State} (h : s.Sound seen) {before : List Token} {x : Binary64}
    (operand : s.operand = .value before x) : AllFinite before ∧ x.Usable seen := by
  unfold State.operand at operand
  split at operand
  · cases value : s.currentValue? with
    | none => rw [value] at operand; cases operand
    | some y =>
      rw [value] at operand
      cases operand
      exact ⟨h.tokens, h.currentValue value⟩
  · obtain ⟨part, finite⟩ := trailing_value operand h.tokens
    exact ⟨h.tokens.subset part, .inl finite⟩

theorem Sound.operand_group {s : State} (h : s.Sound seen) {before inner : List Token}
    (operand : s.operand = .group before inner) : AllFinite before ∧ AllFinite inner := by
  unfold State.operand at operand
  split at operand
  · split at operand <;> cases operand
  · obtain ⟨front, back⟩ := trailing_group operand
    exact ⟨h.tokens.subset front, h.tokens.subset back⟩

theorem Sound.wrap {s : State} (h : s.Sound seen) {before wrapped : List Token}
    (finite : AllFinite (before ++ wrapped))
    (noted : (s.wrap .standard before wrapped).Noted seen) :
    (s.wrap .standard before wrapped).Sound seen := by
  rcases s.wrap_cases .standard before wrapped with ⟨x, -, -, same⟩ | ⟨-, same⟩
  · rw [same] at noted ⊢
    exact ⟨h.advanced, finite, h.entry, h.result, definite_shown x noted⟩
  · rw [same]
    exact h.showError

theorem Sound.replace {s : State} (h : s.Sound seen) {before : List Token}
    (finite : AllFinite before) {x : Binary64} (usable : x.Usable seen)
    (noted : (s.replace .standard before x).Noted seen) :
    (s.replace .standard before x).Sound seen :=
  ⟨h.advanced, finite, .inr (typed_plain usable), h.result, definite_shown x noted⟩

theorem allFinite_percentage {inner : List Token} (h : AllFinite inner) :
    AllFinite (percentage inner) := by
  have number : AllFinite [hundred] := by
    intro n hn
    cases List.mem_singleton.mp hn
    decide +kernel
  have operator : AllFinite [.operator .divide] := allFinite_singleton (by simp)
  have opening : AllFinite [.opening] := allFinite_singleton (by simp)
  have closing : AllFinite [.closing] := allFinite_singleton (by simp)
  exact (opening.append h).append (operator.append (number.append closing))

theorem allFinite_applied (f : Function) {inner : List Token} (h : AllFinite inner) :
    AllFinite (applied f inner) := by
  have call : AllFinite [.function f] := allFinite_singleton (by simp)
  unfold applied
  split
  · exact call.append h
  · have opening : AllFinite [.opening] := allFinite_singleton (by simp)
    exact ((call.append opening).append h).append (allFinite_singleton (by simp))

theorem Sound.percent {s : State} (h : s.Sound seen)
    (noted : (s.percent .standard).Noted seen) : (s.percent .standard).Sound seen := by
  rcases s.percent_cases .standard with
    ⟨before, inner, operand, same⟩ | ⟨before, x, operand, same⟩ | ⟨-, same⟩
  · rw [same] at noted ⊢
    obtain ⟨front, inner⟩ := h.operand_group operand
    exact h.wrap (front.append (allFinite_percentage inner)) noted
  · rw [same] at noted ⊢
    obtain ⟨front, usable⟩ := h.operand_value operand
    exact h.replace front usable.div_hundred noted
  · rw [same]
    exact h

theorem Sound.unary {s : State} (h : s.Sound seen) (f : Function)
    (noted : (s.unary .standard f).Noted seen) : (s.unary .standard f).Sound seen := by
  rcases s.unary_cases .standard f with ⟨before, inner, operand, same⟩ |
    ⟨before, x, operand, ⟨-, same⟩ | ⟨shown, same⟩⟩ | ⟨-, same⟩
  · rw [same] at noted ⊢
    obtain ⟨front, inner⟩ := h.operand_group operand
    exact h.wrap (front.append (allFinite_applied f inner)) noted
  · rw [same]
    exact h.showError
  · rw [same] at noted ⊢
    obtain ⟨front, -⟩ := h.operand_value operand
    exact h.replace front (.inl (isFinite_of_shown shown)) noted
  · rw [same]
    exact h

theorem Sound.memoryRecall {s : State} (h : s.Sound seen)
    (noted : (s.memoryRecall .standard).Noted seen) :
    (s.memoryRecall .standard).Sound seen := by
  have fresh := h.freshen
  rcases s.memoryRecall_cases .standard with ⟨-, same⟩ | ⟨shown, same⟩
  · rw [same]
    exact h.showError
  · rw [same] at noted ⊢
    exact ⟨fresh.advanced, fresh.tokens, .inr (typed_plain (.inl (isFinite_of_shown shown))),
      fresh.result, definite_shown _ noted⟩

theorem Sound.memoryAdd {s : State} (h : s.Sound seen) : s.memoryAdd.Sound seen := by
  unfold State.memoryAdd
  split
  · exact ⟨h.advanced, h.tokens, h.entry, h.result, h.display⟩
  · exact h

theorem Sound.memorySubtract {s : State} (h : s.Sound seen) : s.memorySubtract.Sound seen := by
  unfold State.memorySubtract
  split
  · exact ⟨h.advanced, h.tokens, h.entry, h.result, h.display⟩
  · exact h

theorem Sound.conclude {s : State} (h : s.Sound seen) {o : Outcome}
    (finite : ∀ x, o = .value x → x.isFinite = true)
    (noted : (s.conclude .standard o).Noted seen) : (s.conclude .standard o).Sound seen := by
  have clear : s.clear.Sound seen := sound_clear h.advanced
  cases o with
  | value x =>
    have lasting := lasting_shown (finite x rfl) noted
    refine ⟨h.advanced, clear.tokens, .inl rfl, ?_, lasting.definite⟩
    intro r hr
    cases hr
    exact lasting
  | failure kind message raw =>
    exact ⟨h.advanced, clear.tokens, .inl rfl, clear.result, bounded_error.definite⟩

theorem namesInfinity_render_iff {o : Outcome} (finite : ∀ x, o = .value x → x.isFinite = true) :
    namesInfinity (Panel.standard.render o).toList = true ↔ o.Soars := by
  cases o with
  | failure kind message raw =>
    simp [Panel.render, not_namesInfinity_error, Outcome.Soars]
  | value x =>
    cases x with
    | nan => cases finite _ rfl
    | infinity t => cases finite _ rfl
    | finite t m => simp [Panel.render, namesInfinity_shown_iff, Outcome.Soars]

/-- The last result is a numeral unless it is the text of a number past the brink. -/
theorem ofNumeral_of_conclude {s : State} {o : Outcome}
    (finite : ∀ x, o = .value x → x.isFinite = true) {r : String}
    (result : (s.conclude .standard o).lastResult = some r) :
    (∃ t, Token.ofNumeral r = .ok t) ↔ ¬ o.Soars := by
  rw [← namesInfinity_render_iff finite]
  cases o with
  | failure kind message raw => cases result
  | value x =>
    cases result
    have legible : Legible (Panel.standard.render (.value x)) :=
      legible_shown .standard (finite x rfl)
    rw [ofNumeral_iff legible, Bool.eq_false_iff]

/-! Tokens -/

theorem currentTokens_of_namesInfinity {s : State} (h : namesInfinity s.entry.toList = true) :
    s.currentTokens = .error (.notNumeral s.entry) := by
  have filled : s.entry ≠ "" := Legible.ne_empty (.inr h)
  rw [currentTokens, if_neg filled, ofNumeral_of_namesInfinity h]
  rfl

theorem currentTokens_of_lasting {s : State} (finite : AllFinite s.tokens)
    (h : s.entry = "" ∨ Lasting seen s.entry) (other : namesInfinity s.entry.toList = false) :
    ∃ ts, s.currentTokens = .ok ts ∧ AllFinite ts := by
  unfold currentTokens
  split
  · exact ⟨_, rfl, finite⟩
  · rename_i filled
    obtain ⟨accepted, bounded⟩ := (h.resolve_left filled).resolve_right (by simp [other])
    have number : AllFinite [.number ⟨s.entry, accepted⟩] := by
      intro n hn
      cases List.mem_singleton.mp hn
      exact value_isFinite bounded
    rw [ofNumeral_of_accepts accepted]
    exact ⟨_, rfl, finite.append number⟩

/-- The text in front of a token is one from which an operator continues. -/
theorem Sound.behind {s : State} (h : s.Sound seen) (t : Token) :
    (s.behind t).entry = "" ∨ Lasting seen (s.behind t).entry := by
  obtain ⟨entry, same, origin⟩ := behind_eq t s
  rw [same]
  rcases origin with rfl | result
  · exact h.entry.imp_right Typed.lasting
  · exact .inr (h.result _ result)

theorem seen_of_namesInfinity {text : String} (h : text = "" ∨ Lasting seen text)
    (named : namesInfinity text.toList = true) : seen := by
  rcases h with rfl | lasting
  · cases named
  · exact lasting.seen_of_named named

/-- A token is refused just where the text in front of it is no numeral. -/
theorem Sound.element {s : State} (h : s.Sound seen) {t : Token} (other : ∀ n, t ≠ .number n) :
    (∃ s', s.element .standard (.token t) = .ok s' ∧ (s'.Noted seen → s'.Sound seen) ∧
      namesInfinity (s.freshen.behind t).entry.toList = false) ∨
    ∃ left, s.element .standard (.token t) =
        .error ⟨.notNumeral (s.freshen.behind t).entry, left⟩ ∧ left.Sound seen ∧
      namesInfinity (s.freshen.behind t).entry.toList = true := by
  have fresh := h.freshen
  have lasting := fresh.behind t
  obtain ⟨entry, same, -⟩ := behind_eq t s.freshen
  cases named : namesInfinity (s.freshen.behind t).entry.toList with
  | false =>
    obtain ⟨ts, tokens, finite⟩ := currentTokens_of_lasting (s := s.freshen.behind t)
      (by rw [same]; exact fresh.tokens) lasting named
    obtain ⟨display, placed, text⟩ := place_token .standard t tokens
    left
    refine ⟨{ s.freshen with tokens := ts ++ [t], entry := "", display, lastResult := none }, ?_,
      fun noted => ⟨fresh.advanced, finite.append (allFinite_singleton other), .inl rfl, by simp,
        ?_⟩, rfl⟩
    · rw [State.element, placed, same]
      rfl
    · rcases text with rfl | ⟨n, number, -⟩ | ⟨x, -, rfl⟩
      · exact fresh.display
      · exact absurd number (other n)
      · exact definite_shown x noted
  | true =>
    right
    refine ⟨s.freshen.behind t, ?_, ?_, rfl⟩
    · rw [State.element, place_of_error _ t (currentTokens_of_namesInfinity named)]
      rfl
    · have infinite : seen := seen_of_namesInfinity lasting named
      rw [same] at named ⊢
      exact ⟨fresh.advanced, fresh.tokens, .inr (.inr ⟨infinite, named⟩), fresh.result,
        fresh.display⟩

end State

end DeskCalculator.Calculator
