import DeskCalculator.Proofs.Operations

/-!
# Typing at full width

A digit is refused where the entry is as long as the display is wide, and a point is not. So
what is typed from an empty entry exceeds the display by its point at most (`State.Typing`), and
it fits throughout just if no point is typed behind a full entry: `typing_fits_iff`.
-/

namespace DeskCalculator.Calculator
open Display DeskCalculator.Expr

/-- Inputs that type a number or take it back. -/
def isTyping : Operation → Bool
  | .digit _ | .decimal | .backspace => true
  | _ => false

namespace State

/-- Neither what is typed nor what is shown is wider than the display. -/
def FitsOn (p : Panel) (s : State) : Prop :=
  s.entry.length ≤ p.params.maxLength ∧ s.display.length ≤ p.params.maxLength

instance (p : Panel) (s : State) : Decidable (s.FitsOn p) := inferInstanceAs (Decidable (_ ∧ _))

/-- The entry is full and has no point. -/
def Brims (p : Panel) (s : State) : Prop :=
  s.entry.length = p.params.maxLength ∧ '.' ∉ s.entry.toList

instance (p : Panel) (s : State) : Decidable (s.Brims p) := inferInstanceAs (Decidable (_ ∧ _))

/-- What typing has led to, where the given text was shown before: the display shows what is
typed, and that is too long only by a point at its end. -/
structure Typing (p : Panel) (before : String) (s : State) : Prop where
  calm : s.errorShown = false
  shown : s.entry ≠ "" → s.display = s.entry
  unshown : s.entry = "" → s.display = before ∨ s.display = "0"
  positional : 'e' ∉ s.entry.toList
  room : s.entry.length ≤ p.params.maxLength ∨
    s.entry.length = p.params.maxLength + 1 ∧ s.entry.toList.getLast? = some '.'

variable {p : Panel} {before : String} {s : State}

theorem length_entry_of_empty (p : Panel) (h : s.entry = "") :
    s.entry.length ≤ p.params.maxLength := by
  have wide := p.valid.1
  rw [h, String.length_empty]
  omega

theorem Typing.typed (h : s.Typing p before) {text : String} (filled : text ≠ "")
    (positional : 'e' ∉ text.toList)
    (room : text.length ≤ p.params.maxLength ∨
      text.length = p.params.maxLength + 1 ∧ text.toList.getLast? = some '.') :
    (s.typed text).Typing p before :=
  ⟨h.calm, fun _ => rfl, fun empty => absurd empty filled, positional, room⟩

/-- A digit is refused, or there is room for it. -/
theorem Typing.digit_cases (h : s.Typing p before) (d : String) :
    left (s.digit p d) = s ∨ ∃ text, left (s.digit p d) = s.typed text ∧ text ≠ "" ∧
      'e' ∉ text.toList ∧ text.length ≤ p.params.maxLength := by
  have wide := p.valid.1
  rcases s.digit_cases p d with same | fresh | ⟨c, text, digit, room, typed, origin⟩
  · exact .inl same
  · rw [freshen_of_calm h.calm] at fresh
    exact .inl fresh
  · rw [freshen_of_calm h.calm] at room typed origin
    have plain : 'e' ≠ c := by rintro rfl; cases digit
    refine .inr ⟨text, typed, ?_⟩
    rcases origin with rfl | rfl
    · exact ⟨by simp, by simpa using plain, by simp; omega⟩
    · refine ⟨by simp, ?_, by simp; omega⟩
      simpa using ⟨h.positional, plain⟩

/-- The point is put behind what is typed unless there is one. -/
theorem Typing.decimal_cases (h : s.Typing p before) :
    s.entry = "" ∧ s.decimal = s.typed "0." ∨
    s.entry ≠ "" ∧ '.' ∈ s.entry.toList ∧ s.decimal = s.typed s.entry ∨
    '.' ∉ s.entry.toList ∧ s.decimal = s.typed (s.entry ++ ".") := by
  obtain ⟨text, typed, origin⟩ := s.decimal_cases
  rw [freshen_of_calm h.calm] at typed origin
  rcases origin with ⟨empty, rfl⟩ | ⟨filled, ⟨rfl, marked⟩ | ⟨rfl, pointless⟩⟩
  · exact .inl ⟨empty, typed⟩
  · exact .inr (.inl ⟨filled, marked.resolve_right h.positional, typed⟩)
  · exact .inr (.inr ⟨pointless, typed⟩)

theorem shortened_prefix (text : String) : (shortened text).toList <+: text.toList.dropLast := by
  unfold shortened
  dsimp only
  split
  · exact List.nil_prefix
  · simp only [String.toList_ofList, List.prefix_rfl]

/-- Without a point what is typed fits. -/
theorem Typing.room_of_pointless (h : s.Typing p before) (pointless : '.' ∉ s.entry.toList) :
    s.entry.length ≤ p.params.maxLength :=
  h.room.resolve_right fun pointed => pointless (List.mem_of_getLast? pointed.2)

theorem Typing.digit (h : s.Typing p before) (d : String) :
    (left (s.digit p d)).Typing p before ∧
      (s.entry.length ≤ p.params.maxLength →
        (left (s.digit p d)).entry.length ≤ p.params.maxLength) := by
  rcases h.digit_cases d with same | ⟨text, typed, filled, positional, room⟩
  · rw [same]
    exact ⟨h, id⟩
  · rw [typed]
    exact ⟨h.typed filled positional (.inl room), fun _ => room⟩

theorem Typing.decimal (h : s.Typing p before) :
    s.decimal.Typing p before ∧
      (s.entry.length ≤ p.params.maxLength →
        (s.decimal.entry.length ≤ p.params.maxLength ↔ ¬ s.Brims p)) := by
  have wide := p.valid.1
  rcases h.decimal_cases with ⟨empty, typed⟩ | ⟨filled, point, typed⟩ | ⟨pointless, typed⟩
  · have room : ("0.".length : Int) ≤ p.params.maxLength := by
      rw [show "0.".length = 2 from rfl]
      omega
    rw [typed]
    refine ⟨h.typed (by decide) (by decide) (.inl room), fun _ => iff_of_true room ?_⟩
    rintro ⟨full, -⟩
    rw [empty, String.length_empty] at full
    omega
  · rw [typed]
    exact ⟨h.typed filled h.positional h.room,
      fun fits => iff_of_true fits fun brims => brims.2 point⟩
  · have fits := h.room_of_pointless pointless
    have longer : (s.entry ++ ".").length = s.entry.length + 1 :=
      String.length_append _ _
    rw [typed]
    refine ⟨h.typed (by simp) (by simp [h.positional]) ?_, fun _ => ?_⟩
    · rcases Int.lt_or_eq_of_le fits with less | full
      · exact .inl (by omega)
      · exact .inr ⟨by omega, by simp⟩
    · simp only [State.typed, Brims, pointless, not_false_eq_true, and_true]
      omega

theorem Typing.backspace (h : s.Typing p before) :
    s.backspace.Typing p before ∧ s.backspace.entry.length ≤ p.params.maxLength := by
  have wide := p.valid.1
  rcases s.backspace_cases with ⟨filled, back⟩ | ⟨empty, -, back⟩ | ⟨empty, -, back⟩
  · have part := shortened_prefix s.entry
    have shorter : ((shortened s.entry).length : Int) ≤ p.params.maxLength := by
      have less := part.length_le
      rw [List.length_dropLast, String.length_toList, String.length_toList] at less
      rcases h.room with room | ⟨room, -⟩
      · omega
      · omega
    rw [back]
    refine ⟨⟨h.calm, fun some => if_neg some, fun none => .inr (if_pos none), ?_, .inl shorter⟩,
      shorter⟩
    exact fun exponent => h.positional ((List.dropLast_prefix _).mem (part.mem exponent))
  all_goals
    have room := length_entry_of_empty p empty
    rw [back]
  · exact ⟨⟨h.calm, fun some => absurd empty some, fun _ => .inr rfl, h.positional, .inl room⟩,
      room⟩
  · exact ⟨h, room⟩

/-- While the text shown before fits, the display fits if what is typed does. -/
theorem Typing.fitsOn_iff (h : s.Typing p before) (fits : before.length ≤ p.params.maxLength) :
    s.FitsOn p ↔ s.entry.length ≤ p.params.maxLength := by
  have wide := p.valid.1
  by_cases empty : s.entry = ""
  · refine and_iff_left_of_imp fun _ => ?_
    rcases h.unshown empty with same | same
    · rw [same]
      exact fits
    · rw [same, show "0".length = 1 from rfl]
      omega
  · rw [FitsOn, h.shown empty, and_self]

end State

/-- One input of typing, and whether what is typed fits behind it. -/
theorem Desk.typing_perform {d : Desk} {before : String} (h : d.state.Typing d.panel before)
    {x : Operation} (typing : isTyping x = true) :
    (d.perform x).2.state.Typing d.panel before ∧
      (d.state.entry.length ≤ d.panel.params.maxLength →
        ((d.perform x).2.state.entry.length ≤ d.panel.params.maxLength ↔
          ¬ (x = .decimal ∧ d.state.Brims d.panel))) := by
  have same := (d.yields_perform x).2
  cases x with
  | digit a =>
    obtain ⟨kept, fits⟩ := h.digit a
    rw [same]
    exact ⟨kept, fun room => iff_of_true (fits room) (by simp)⟩
  | decimal =>
    obtain ⟨kept, fits⟩ := h.decimal
    rw [same]
    refine ⟨kept, fun room => ?_⟩
    simp only [true_and]
    exact fits room
  | backspace =>
    obtain ⟨kept, fits⟩ := h.backspace
    rw [same]
    exact ⟨kept, fun _ => iff_of_true fits (by simp)⟩
  | _ => cases typing

namespace Desk
variable {d : Desk} {inputs : List Operation}

theorem typing_after (empty : d.state.entry = "") (calm : d.state.errorShown = false)
    (typing : ∀ x ∈ inputs, isTyping x = true) :
    (d.after inputs).state.Typing d.panel d.state.display := by
  induction inputs using List.reverseRecOn with
  | nil =>
    exact ⟨calm, fun filled => absurd empty filled, fun _ => .inl rfl,
      by simp [Desk.after, empty], .inl (State.length_entry_of_empty d.panel empty)⟩
  | append_singleton inputs x ih =>
    have kept := ih fun y hy => typing y (List.mem_append_left _ hy)
    rw [← d.panel_after inputs] at kept ⊢
    rw [after_concat]
    exact (typing_perform kept (typing x (by simp))).1

end Desk

/-- **What is typed from an empty entry fits throughout just if no point is typed behind a full
entry,** and what was shown before fits. -/
theorem typing_fits_iff {d : Desk} (empty : d.state.entry = "") (calm : d.state.errorShown = false)
    {inputs : List Operation} (typing : ∀ x ∈ inputs, isTyping x = true) :
    let s (inputs : List Operation) := (d.after inputs).state
    ((∀ before, before <+: inputs → (s before).FitsOn d.panel) ↔
      d.state.display.length ≤ d.panel.params.maxLength ∧
      ∀ before, before ++ [.decimal] <+: inputs → ¬ (s before).Brims d.panel) ∧
    (s inputs).Typing d.panel d.state.display := by
  intro s
  have kept (before : List Operation) (run : before <+: inputs) :
      (s before).Typing d.panel d.state.display :=
    Desk.typing_after empty calm fun x hx => typing x (run.mem hx)
  have step (before : List Operation) (x : Operation) (run : before ++ [x] <+: inputs)
      (room : (s before).entry.length ≤ d.panel.params.maxLength) :
      (s (before ++ [x])).entry.length ≤ d.panel.params.maxLength ↔
        ¬ (x = .decimal ∧ (s before).Brims d.panel) := by
    have here := kept before ((List.prefix_append before [x]).trans run)
    have same := d.panel_after before
    simp only [s, Desk.after_concat, ← same] at here room ⊢
    exact (Desk.typing_perform here (typing x (run.mem (by simp)))).2 room
  refine ⟨⟨fun fit => ?_, ?_⟩, kept inputs List.prefix_rfl⟩
  · have first : d.state.display.length ≤ d.panel.params.maxLength := (fit [] List.nil_prefix).2
    refine ⟨first, fun before run brims => ?_⟩
    have room := (fit before ((List.prefix_append before [_]).trans run)).1
    exact (step before _ run room).mp (fit _ run).1 ⟨rfl, brims⟩
  · rintro ⟨first, within⟩ before run
    rw [(kept before run).fitsOn_iff first]
    induction before using List.reverseRecOn with
    | nil => exact State.length_entry_of_empty d.panel empty
    | append_singleton before x ih =>
      have here := ih ((List.prefix_append before [x]).trans run)
      rw [step before x run here]
      rintro ⟨rfl, brims⟩
      exact within before run brims

/-- Eight digits fill a display of eight, and the point goes beyond it. -/
theorem typing_fits_iff_narrow :
    let d := Desk.start ⟨⟨8, 12, 10, "Error"⟩, by decide⟩ .radians .advanced none ⟨0⟩
    let inputs := List.replicate 8 (.digit "1") ++ [.decimal]
    d.state.entry = "" ∧ d.state.errorShown = false ∧ (∀ x ∈ inputs, isTyping x = true) ∧
    ¬ (∀ before, before <+: inputs → (d.after before).state.FitsOn d.panel) ∧
    (d.after inputs).state.display = "11111111." := by
  intro d inputs
  have typing : ∀ x ∈ inputs, isTyping x = true := by decide
  obtain ⟨fits_iff, -⟩ := typing_fits_iff (d := d) rfl rfl typing
  refine ⟨rfl, rfl, typing, fun fit => ?_, by decide +kernel⟩
  exact (fits_iff.mp fit).2 (List.replicate 8 (.digit "1")) List.prefix_rfl (by decide +kernel)

/-- Sixteen digits fill the display, and the point is typed behind them. -/
theorem not_typing_fits :
    ¬ ∀ inputs : List Operation, (∀ x ∈ inputs, isTyping x = true) →
      ((Desk.standard none ⟨0⟩).after inputs).state.FitsOn .standard := by
  intro claimed
  have fits := claimed (List.replicate 16 (.digit "1") ++ [.decimal]) (by decide)
  revert fits
  decide +kernel

end DeskCalculator.Calculator
