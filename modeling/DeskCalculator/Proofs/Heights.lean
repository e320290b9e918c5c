import DeskCalculator.Failure
import DeskCalculator.Proofs.Forest
import Mathlib.Data.List.Induction

/-!
# How high the stack is

A number or constant raises the stack by one and an operator lowers it by one. The height alone
tells what becomes of a sequence: it goes on while each token finds the operands it needs
(`Sustained`), the first that does not is reported, and at the end exactly one value must be
left. Then the sequence is the postorder of one tree, whose value it has: `compute_by_height`.
-/

namespace DeskCalculator.Expr
open Number

namespace Token

/-- How many operands a token needs. A parenthesis has no place behind operands. -/
def needs : Token → Option Nat
  | number _ | constant _ => some 0
  | function _ => some 1
  | operator _ => some 2
  | opening | closing => none

/-- By how much a token raises the stack. -/
def rise : Token → Int
  | number _ | constant _ => 1
  | operator _ => -1
  | function _ | opening | closing => 0

end Token

/-- How high the stack is behind a sequence. -/
def height (ts : List Token) : Int := ts.foldl (fun h t => h + t.rise) 0

/-- A token that finds the operands it needs on a stack of the given height. -/
def Token.Served (t : Token) (height : Int) : Prop := ∃ k, t.needs = some k ∧ k ≤ height

/-- Each token finds the operands it needs. -/
def Sustained (ts : List Token) : Prop :=
  ∀ a t b, ts = a ++ t :: b → t.Served (height a)

theorem height_concat (ts : List Token) (t : Token) : height (ts ++ [t]) = height ts + t.rise := by
  simp [height]

theorem sustained_nil : Sustained [] := by
  intro a t b same
  simp at same

theorem sustained_concat {ts : List Token} {t : Token} :
    Sustained (ts ++ [t]) ↔ Sustained ts ∧ t.Served (height ts) := by
  constructor
  · intro sustained
    refine ⟨fun a u b same => sustained a u (b ++ [t]) ?_, sustained ts t [] rfl⟩
    rw [same, List.append_assoc, List.cons_append]
  · rintro ⟨sustained, served⟩ a u b same
    rcases List.eq_nil_or_concat b with rfl | ⟨c, v, rfl⟩
    · obtain ⟨rfl, last⟩ := List.append_inj' same rfl
      cases last
      exact served
    · have parts : ts ++ [t] = (a ++ u :: c) ++ [v] := by simpa using same
      exact sustained a u c (List.append_inj' parts rfl).1

/-- A sequence is sustained, or there is a first token at which it is not. -/
theorem sustained_or (ts : List Token) :
    Sustained ts ∨ ∃ a t b, ts = a ++ t :: b ∧ Sustained a ∧ ¬ t.Served (height a) := by
  induction ts using List.reverseRecOn with
  | nil => exact .inl sustained_nil
  | append_singleton ts t ih =>
    rcases ih with sustained | ⟨a, u, b, rfl, sustained, starved⟩
    · by_cases served : t.Served (height ts)
      · exact .inl (sustained_concat.mpr ⟨sustained, served⟩)
      · exact .inr ⟨ts, t, [], rfl, sustained, served⟩
    · exact .inr ⟨a, u, b ++ [t], by simp, sustained, starved⟩

namespace Forest
variable {trees trees' : Forest} {t : Token} {ts : List Token}

theorem exists_grow (trees : Forest) (t : Token) (served : t.Served trees.length) :
    ∃ trees', grow trees t = some trees' := by
  obtain ⟨k, needs, enough⟩ := served
  cases t with
  | number n => exact ⟨_, rfl⟩
  | constant c => exact ⟨_, rfl⟩
  | function f =>
    cases needs
    match trees with
    | [] => simp at enough
    | x :: trees => exact ⟨_, rfl⟩
  | operator o =>
    cases needs
    match trees with
    | [] => simp at enough
    | [x] => simp at enough
    | r :: l :: trees => exact ⟨_, rfl⟩
  | opening => cases needs
  | closing => cases needs

theorem length_grow (h : grow trees t = some trees') :
    (trees'.length : Int) = trees.length + t.rise ∧ t.Served trees.length := by
  unfold grow at h
  split at h <;> cases h
  · exact ⟨rfl, 0, rfl, by simp⟩
  · exact ⟨rfl, 0, rfl, by simp⟩
  · refine ⟨?_, 2, rfl, ?_⟩
    · simp only [List.length_cons, Token.rise]
      omega
    · simp only [List.length_cons]
      omega
  · refine ⟨?_, 1, rfl, ?_⟩
    · simp only [List.length_cons, Token.rise]
      omega
    · simp only [List.length_cons]
      omega

/-- What has grown is as high as the stack. -/
theorem length_foldlM (h : ts.foldlM grow [] = some trees) : trees.length = height ts := by
  induction ts using List.reverseRecOn generalizing trees with
  | nil =>
    cases h
    rfl
  | append_singleton ts t ih =>
    rw [List.foldlM_append, Option.bind_eq_bind, Option.bind_eq_some_iff] at h
    obtain ⟨before, first, last⟩ := h
    have step : grow before t = some trees := by simpa using last
    rw [height_concat, ← ih first]
    exact (length_grow step).1

/-- Trees grow from what is sustained, and from nothing else. -/
theorem sustained_iff : Sustained ts ↔ ∃ trees : Forest, ts.foldlM grow [] = some trees := by
  induction ts using List.reverseRecOn with
  | nil => exact ⟨fun _ => ⟨[], rfl⟩, fun _ => sustained_nil⟩
  | append_singleton ts t ih =>
    simp only [sustained_concat, ih, List.foldlM_append, Option.bind_eq_bind,
      Option.bind_eq_some_iff, List.foldlM_cons, List.foldlM_nil]
    constructor
    · rintro ⟨⟨trees, first⟩, served⟩
      obtain ⟨trees', step⟩ := exists_grow trees t (length_foldlM first ▸ served)
      exact ⟨trees', trees, first, trees', step, rfl⟩
    · rintro ⟨trees', trees, first, last, step, -⟩
      exact ⟨⟨trees, first⟩, length_foldlM first ▸ (length_grow step).2⟩

/-- A token that is not served stops the machine. -/
theorem step_starved (angle : AngleMode) {trees : Forest} {k : Nat} (needs : t.needs = some k)
    (few : trees.length < k) : ∃ f, Machine.step angle (machine angle trees) (.token t) = .error f ∧
      Failure.detailOf f = .underflow (some t.text) (some k) (some trees.length) := by
  cases t with
  | number n =>
    cases needs
    simp at few
  | constant c =>
    cases needs
    simp at few
  | function f =>
    cases needs
    match trees with
    | [] => exact ⟨_, rfl, rfl⟩
    | x :: trees => simp at few
  | operator o =>
    cases needs
    match trees with
    | [] => exact ⟨_, rfl, rfl⟩
    | [x] => exact ⟨_, rfl, rfl⟩
    | r :: l :: trees =>
      simp only [List.length_cons] at few
      omega
  | opening => cases needs
  | closing => cases needs

end Forest

/-- What a sequence is stopped by, and what is reported of it. -/
inductive Stops (ts : List Token) : Detail → Prop
  | operator {a b : List Token} {o : Operator} (split : ts = a ++ .operator o :: b)
      (sustained : Sustained a) (few : height a < 2) :
      Stops ts (.underflow (some (Vocabulary.spelling o)) (some 2) (some (height a)))
  | function {a b : List Token} {f : Function} (split : ts = a ++ .function f :: b)
      (sustained : Sustained a) (bare : height a = 0) :
      Stops ts (.underflow (some (Vocabulary.spelling f)) (some 1) (some 0))
  | parenthesis {a b : List Token} {t : Token} (split : ts = a ++ t :: b)
      (sustained : Sustained a) (parenthesis : t = .opening ∨ t = .closing) :
      Stops ts (.malformed none none)
  | nothing (empty : ts = []) : Stops ts (.underflow none (some 1) (some 0))
  | leftover (sustained : Sustained ts) (many : 1 < height ts) :
      Stops ts (.malformed none (some (height ts - 1)))

section Compute
variable {angle : AngleMode} {a b ts : List Token} {t : Token}

/-- The machine fails, and reports this. -/
def Reports (angle : AngleMode) (ts : List Token) (d : Detail) : Prop :=
  ∃ f, compute angle (elements ts) = .error f ∧ Failure.detailOf f = d

/-- The machine gets through what is sustained. -/
theorem run_of_sustained (angle : AngleMode) (h : Sustained a) :
    ∃ trees : Forest, trees.written = a ∧ trees.length = height a ∧
      ∀ xs, Machine.run angle .start (elements a ++ xs) =
        Machine.run angle (trees.machine angle) xs := by
  obtain ⟨trees, grown⟩ := Forest.sustained_iff.mp h
  exact ⟨trees, Forest.foldlM_written grown, Forest.length_foldlM grown,
    Forest.run_foldlM angle grown⟩

/-- The first token that stops the machine is what it reports. -/
theorem compute_of_stopped {f : Fault} {trees : Forest}
    (run : ∀ xs, Machine.run angle .start (elements a ++ xs) =
      Machine.run angle (trees.machine angle) xs)
    (stopped : Machine.step angle (trees.machine angle) (.token t) = .error f) (b : List Token) :
    compute angle (elements (a ++ t :: b)) = .error f := by
  have whole : elements (a ++ t :: b) = elements a ++ .token t :: elements b := by simp
  rw [compute, whole, run, Machine.run, stopped]
  rfl

theorem reports_starved {k : Nat} (sustained : Sustained a) (needs : t.needs = some k)
    (few : height a < k) (b : List Token) :
    Reports angle (a ++ t :: b) (.underflow (some t.text) (some k) (some (height a))) := by
  obtain ⟨trees, -, length, run⟩ := run_of_sustained angle sustained
  rw [← length] at few ⊢
  obtain ⟨f, stopped, detail⟩ := Forest.step_starved angle needs (Int.ofNat_lt.mp few)
  exact ⟨f, compute_of_stopped run stopped b, detail⟩

theorem reports_parenthesis (sustained : Sustained a) (parenthesis : t = .opening ∨ t = .closing)
    (b : List Token) : Reports angle (a ++ t :: b) (.malformed none none) := by
  obtain ⟨trees, -, -, run⟩ := run_of_sustained angle sustained
  have stopped : Machine.step angle (trees.machine angle) (.token t) =
      .error .parenthesisInPostfix := by
    rcases parenthesis with rfl | rfl <;> rfl
  exact ⟨_, compute_of_stopped run stopped b, rfl⟩

/-- What has got through is all trees, and the machine ends with their values. -/
theorem compute_of_sustained (angle : AngleMode) (h : Sustained ts) :
    ∃ trees : Forest, trees.written = ts ∧ trees.length = height ts ∧
      compute angle (elements ts) = (trees.machine angle).finish := by
  obtain ⟨trees, written, length, run⟩ := run_of_sustained angle h
  have whole := run []
  rw [List.append_nil] at whole
  refine ⟨trees, written, length, ?_⟩
  rw [compute, whole]
  rfl

theorem reports_leftover (sustained : Sustained ts) (many : 1 < height ts) :
    Reports angle ts (.malformed none (some (height ts - 1))) := by
  obtain ⟨trees, -, length, computed⟩ := compute_of_sustained angle sustained
  rw [← length] at many ⊢
  match trees with
  | [] => simp at many
  | [u] => simp at many
  | u :: v :: trees =>
    refine ⟨.leftoverOperands (trees.length + 1), ?_, ?_⟩
    · rw [computed]
      simp [Forest.machine, Machine.finish]
    · simp [Failure.detailOf]

theorem reports_of_stops {d : Detail} (h : Stops ts d) : Reports angle ts d := by
  cases h with
  | operator split sustained few =>
    rw [split]
    exact reports_starved sustained rfl few _
  | @function a b f split sustained bare =>
    have few : height a < (1 : Nat) := by omega
    have report : Reports angle (a ++ .function f :: b)
        (.underflow (some (Vocabulary.spelling f)) (some 1) (some (height a))) :=
      reports_starved sustained rfl few b
    rw [bare] at report
    rw [split]
    exact report
  | parenthesis split sustained parenthesis =>
    rw [split]
    exact reports_parenthesis sustained parenthesis _
  | nothing empty =>
    rw [empty]
    exact ⟨_, rfl, rfl⟩
  | leftover sustained many => exact reports_leftover sustained many

/-- A sequence is stopped, or it is the postorder of a tree. -/
theorem stops_or (ts : List Token) : (∃ d, Stops ts d) ∨ ∃ u : Tree, u.postorder = ts := by
  rcases sustained_or ts with sustained | ⟨a, t, b, rfl, sustained, starved⟩
  · obtain ⟨trees, written, length, -⟩ := compute_of_sustained .radians sustained
    match trees with
    | [] => exact .inl ⟨_, .nothing written.symm⟩
    | [u] => exact .inr ⟨u, written⟩
    | u :: v :: trees =>
      refine .inl ⟨_, .leftover sustained ?_⟩
      rw [← length]
      simp only [List.length_cons]
      omega
  · left
    obtain ⟨trees, -, length, -⟩ := compute_of_sustained .radians sustained
    cases t with
    | number n => exact absurd ⟨0, rfl, by omega⟩ starved
    | constant c => exact absurd ⟨0, rfl, by omega⟩ starved
    | operator o =>
      exact ⟨_, .operator rfl sustained (Int.not_le.mp fun enough => starved ⟨2, rfl, enough⟩)⟩
    | function f =>
      have few : height a < 1 := Int.not_le.mp fun enough => starved ⟨1, rfl, enough⟩
      exact ⟨_, .function rfl sustained (by omega)⟩
    | opening => exact ⟨_, .parenthesis rfl sustained (.inl rfl)⟩
    | closing => exact ⟨_, .parenthesis rfl sustained (.inr rfl)⟩

/-- What is computed is not stopped. -/
theorem not_stops_postorder (u : Tree) (d : Detail) : ¬ Stops u.postorder d := by
  intro stops
  obtain ⟨f, failed, -⟩ : Reports .radians u.postorder d := reports_of_stops stops
  rw [compute_postorder] at failed
  cases failed

theorem reports_iff {d : Detail} : Reports angle ts d ↔ Stops ts d := by
  refine ⟨fun reports => ?_, reports_of_stops⟩
  obtain ⟨f, failed, detail⟩ := reports
  rcases stops_or ts with ⟨d', stops⟩ | ⟨u, rfl⟩
  · obtain ⟨f', failed', detail'⟩ : Reports angle ts d' := reports_of_stops stops
    cases failed.symm.trans failed'
    rw [← detail, detail']
    exact stops
  · rw [compute_postorder] at failed
    cases failed

theorem compute_eq_ok {x : Binary64} {z : Bool} : compute angle (elements ts) = .ok (x, z) ↔
    ∃ u : Tree, u.postorder = ts ∧ u.value angle = x ∧ u.zeroDivisor angle = z := by
  constructor
  · intro computed
    rcases stops_or ts with ⟨d, stops⟩ | ⟨u, rfl⟩
    · obtain ⟨f, failed, -⟩ : Reports angle ts d := reports_of_stops stops
      cases computed.symm.trans failed
    · rw [compute_postorder] at computed
      cases computed
      exact ⟨u, rfl, rfl, rfl⟩
  · rintro ⟨u, rfl, rfl, rfl⟩
    exact compute_postorder angle u

/-- The postorder of a tree keeps the stack filled and leaves it with one value. -/
theorem exists_postorder_iff : (∃ u : Tree, u.postorder = ts) ↔ Sustained ts ∧ height ts = 1 := by
  constructor
  · rintro ⟨u, rfl⟩
    have grown := Forest.grow_postorder u []
    exact ⟨Forest.sustained_iff.mpr ⟨_, grown⟩, (Forest.length_foldlM grown).symm⟩
  · rintro ⟨sustained, one⟩
    obtain ⟨trees, written, length, -⟩ := run_of_sustained .radians sustained
    match trees with
    | [u] => exact ⟨u, written⟩
    | [] => simp [one] at length
    | u :: v :: trees =>
      simp only [List.length_cons] at length
      omega

/-- **The height of the stack tells what the machine does.** It reports what stops a sequence.
If nothing does, then the sequence is the postorder of a tree, and of no other, and is computed
as the value of that tree. -/
theorem compute_by_height (angle : AngleMode) (ts : List Token) :
    (∀ d, Reports angle ts d ↔ Stops ts d) ∧
    ((¬ ∃ d, Stops ts d) ↔ ∃! u : Tree, u.postorder = ts) ∧
    ((∃! u : Tree, u.postorder = ts) ↔ Sustained ts ∧ height ts = 1) ∧
    ∀ x z, compute angle (elements ts) = .ok (x, z) ↔
      ∃ u : Tree, u.postorder = ts ∧ u.value angle = x ∧ u.zeroDivisor angle = z := by
  have unique : (∃! u : Tree, u.postorder = ts) ↔ ∃ u : Tree, u.postorder = ts := by
    refine ⟨ExistsUnique.exists, fun ⟨u, same⟩ => ⟨u, same, fun v same' => ?_⟩⟩
    exact Tree.postorder_injective (same'.trans same.symm)
  refine ⟨fun d => reports_iff, ?_, unique.trans exists_postorder_iff, fun x z => compute_eq_ok⟩
  rw [unique]
  constructor
  · exact (stops_or ts).resolve_left
  · rintro ⟨u, rfl⟩ ⟨d, stops⟩
    exact not_stops_postorder u d stops

end Compute

end DeskCalculator.Expr
