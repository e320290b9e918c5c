import DeskCalculator.Proofs.Precedence
import DeskCalculator.Expr.Postfix

/-!
# The yard while a group is read

A group is read on top of whatever waits around it, its floor, and does not
reach below it. `Ends` says what the yard holds once a group is read: the
group's postorder, of which the part that still waits lies on the floor.
`placeAll_operand`, `placeAll_group`: operands and groups are read so, by
recursion on both. `postfixOrder_eq_postorder` is the whole of it.
-/

namespace DeskCalculator.Expr

/-- The token that waits. -/
def Waiting.token : Waiting → Token
  | operator o => .operator o
  | function f => .function f
  | opening => .opening

def Waiting.isOperator : Waiting → Bool
  | operator _ => true
  | _ => false

def Waiting.isFunction : Waiting → Bool
  | function _ => true
  | _ => false

namespace Pending

def operators (p : Pending) : List Waiting := p.map fun c => .operator c.1

/-- The left operands in the order they were read. -/
def output : Pending → List Token
  | [] => []
  | (_, l) :: rest => output rest ++ l.postorder

theorem opening_not_mem_operators (p : Pending) : .opening ∉ p.operators := by
  simp [operators]

/-- What waits is joined by writing it out from the latest on. -/
theorem output_collapse (p : Pending) (x : Tree) :
    p.output ++ x.postorder ++ p.operators.map Waiting.token = (p.collapse x).postorder := by
  induction p generalizing x with
  | nil => simp [output, operators, collapse]
  | cons c rest ih =>
    obtain ⟨o, l⟩ := c
    rw [collapse, ← ih]
    simp [output, operators, Tree.postorder, Waiting.token]

/-- An operator releases from the yard what it completes, down to the floor. -/
theorem release_absorb {floor : List Waiting} (h : ∀ w ∈ floor.head?, w.isOperator = false)
    (next : Operator) (p : Pending) (x : Tree) :
    (Yard.release next (p.operators ++ floor)).2 = (p.absorb next x).1.operators ++ floor ∧
    p.output ++ x.postorder ++ (Yard.release next (p.operators ++ floor)).1 =
      (p.absorb next x).1.output ++ (p.absorb next x).2.postorder := by
  induction p generalizing x with
  | nil =>
    cases floor with
    | nil => simp [operators, Yard.release, absorb]
    | cons w rest =>
      have other := h w rfl
      cases w with
      | operator o => cases other
      | function f => simp [operators, Yard.release, absorb]
      | opening => simp [operators, Yard.release, absorb]
  | cons c rest ih =>
    obtain ⟨o, l⟩ := c
    have unfolded : Pending.operators ((o, l) :: rest) ++ floor =
      .operator o :: (Pending.operators rest ++ floor) := rfl
    rw [unfolded, Yard.release, absorb]
    by_cases yields : o.yieldsTo next = true
    · simp only [yields, ↓reduceIte]
      obtain ⟨left, out⟩ := ih (.join o l x)
      refine ⟨left, ?_⟩
      rw [← out]
      simp [output, Tree.postorder]
    · simp only [yields, ↓reduceIte, Bool.false_eq_true]
      exact ⟨rfl, by simp⟩

end Pending

/-- Tokens as they are put into the yard. -/
abbrev elements (ts : List Token) : List Element := ts.map .token

namespace Yard

theorem placeAll_append (position : Nat) (s : Yard) (xs ys : List Element) :
    placeAll position s (xs ++ ys) =
      placeAll position s xs >>= fun t => placeAll (position + xs.length) t ys := by
  induction xs generalizing position s with
  | nil => rfl
  | cons x rest ih =>
    simp only [List.cons_append, placeAll, List.length_cons]
    cases place position s x with
    | error f => rfl
    | ok t =>
      have shift : position + 1 + rest.length = position + (rest.length + 1) := by omega
      exact shift ▸ ih (position + 1) t

theorem placeAll_cons_ok {position : Nat} {s t : Yard} {x : Element} {xs : List Element}
    (h : place position s x = .ok t) :
    placeAll position s (x :: xs) = placeAll (position + 1) t xs := by
  rw [placeAll, h]
  rfl

theorem placeAll_append_ok {position : Nat} {s t : Yard} {xs ys : List Element}
    (h : placeAll position s xs = .ok t) :
    placeAll position s (xs ++ ys) = placeAll (position + xs.length) t ys := by
  rw [placeAll_append, h]
  rfl

/-- The yard holds the given tokens in postfix order, of which those that still
wait lie on the floor. -/
def Ends (s : Yard) (floor : List Waiting) (ts : List Token) : Prop :=
  ∃ top, s.waiting = top ++ floor ∧ .opening ∉ top ∧ s.output ++ top.map Waiting.token = ts

theorem close?_append {top floor : List Waiting} (h : .opening ∉ top) :
    close? (top ++ .opening :: floor) = some (top.map Waiting.token, floor) := by
  induction top with
  | nil => rfl
  | cons w rest ih =>
    have below := ih fun hm => h (List.mem_cons_of_mem _ hm)
    cases w with
    | opening => exact absurd List.mem_cons_self h
    | operator o => simp [close?, below, Waiting.token]
    | function f => simp [close?, below, Waiting.token]

theorem drain?_eq_some {top : List Waiting} (h : .opening ∉ top) :
    drain? top = some (top.map Waiting.token) := by
  induction top with
  | nil => rfl
  | cons w rest ih =>
    have below := ih fun hm => h (List.mem_cons_of_mem _ hm)
    cases w with
    | opening => exact absurd List.mem_cons_self h
    | operator o => simp [drain?, below, Waiting.token]
    | function f => simp [drain?, below, Waiting.token]

theorem take_of_not_function {ws : List Waiting} (h : ∀ w ∈ ws.head?, w.isFunction = false) :
    take ws = ([], ws) := by
  cases ws with
  | nil => rfl
  | cons w rest =>
    cases w with
    | function f => exact absurd (h _ rfl) (by simp [Waiting.isFunction])
    | operator o => rfl
    | opening => rfl

/-- A closing parenthesis writes out its group, and the function in front of it. -/
theorem place_closing {s : Yard} {floor : List Waiting} {ts : List Token}
    (h : s.Ends (.opening :: floor) ts) (position : Nat) :
    place position s (.token .closing) = .ok ⟨ts ++ (take floor).1, (take floor).2⟩ := by
  obtain ⟨top, waiting, closed, rfl⟩ := h
  simp only [place, waiting, close?_append closed, List.append_assoc]

theorem placeAll_parentheses {position : Nat} {out ts written : List Token} {floor : List Waiting}
    (h : ∃ s, placeAll (position + 1) ⟨out, .opening :: floor⟩ (elements ts) = .ok s ∧
      s.Ends (.opening :: floor) written) :
    placeAll position ⟨out, floor⟩ (elements (.opening :: ts ++ [.closing])) =
      .ok ⟨written ++ (take floor).1, (take floor).2⟩ := by
  obtain ⟨s, read, ends⟩ := h
  simp only [elements, List.map_cons, List.map_append, List.cons_append, List.map_nil]
  rw [placeAll_cons_ok (t := ⟨out, .opening :: floor⟩) rfl, placeAll_append_ok read,
    placeAll_cons_ok (place_closing ends _), placeAll]

theorem finish_of_ends {s : Yard} {ts : List Token} (h : s.Ends [] ts) : s.finish = .ok ts := by
  obtain ⟨top, waiting, closed, rfl⟩ := h
  rw [List.append_nil] at waiting
  simp only [finish, waiting, drain?_eq_some closed]

end Yard

open Yard

mutual

/-- An operand is written out as soon as it is read, and nothing of it waits. In
front of plain parentheses no function may wait, as it would take them. -/
theorem placeAll_operand (x : Operand) (proper : x.proper = true) (position : Nat) (s : Yard)
    (h : x.isGroup = true → ∀ w ∈ s.waiting.head?, w.isFunction = false) :
    placeAll position s (elements x.tokens) = .ok ⟨s.output ++ x.tree.postorder, s.waiting⟩ := by
  match x with
  | .number n => rfl
  | .constant c => rfl
  | .group g =>
    have inner := placeAll_group g proper (position + 1) s.output [] (.opening :: s.waiting)
      (by simp [Waiting.isOperator]) (by simp [Pending.operators, Waiting.isFunction])
    rw [Chain.climb_eq_tree, Pending.output, List.append_nil] at inner
    have read := placeAll_parentheses inner
    rw [take_of_not_function (h rfl), List.append_nil] at read
    exact read
  | .call f g =>
    have inner := placeAll_group g proper (position + 1 + 1) s.output []
      (.opening :: .function f :: s.waiting) (by simp [Waiting.isOperator])
      (by simp [Pending.operators, Waiting.isFunction])
    rw [Chain.climb_eq_tree, Pending.output, List.append_nil] at inner
    have read := placeAll_parentheses inner
    rw [take, List.append_assoc] at read
    exact read

/-- A group continues the operands before it, whose operators may wait, and ends
with all of them in postfix order. -/
theorem placeAll_group (g : Group) (proper : g.proper = true) (position : Nat)
    (out : List Token) (p : Pending) (floor : List Waiting)
    (bottom : ∀ w ∈ floor.head?, w.isOperator = false)
    (h : g.opens = true → ∀ w ∈ (p.operators ++ floor).head?, w.isFunction = false) :
    ∃ s, placeAll position ⟨out ++ p.output, p.operators ++ floor⟩ (elements g.tokens) = .ok s ∧
      s.Ends floor (out ++ (p.climb g.chain.1 g.chain.2).postorder) := by
  match g with
  | .last x =>
    refine ⟨_, placeAll_operand x proper position _ h, p.operators, rfl,
      p.opening_not_mem_operators, ?_⟩
    simp only [Group.chain, Pending.climb, ← Pending.output_collapse, List.append_assoc]
  | .bare f g =>
    obtain ⟨inner, plain⟩ : g.proper = true ∧ g.opens = false := by
      simpa [Group.proper] using proper
    obtain ⟨s, read, top, waiting, closed, written⟩ := placeAll_group g inner (position + 1)
      (out ++ p.output) [] (.function f :: (p.operators ++ floor))
      (by simp [Waiting.isOperator]) (by simp [plain])
    refine ⟨s, ?_, top ++ .function f :: p.operators, by simp [waiting],
      by simp [closed, p.opening_not_mem_operators], ?_⟩
    · simp only [Group.tokens, elements, List.map_cons]
      rw [placeAll_cons_ok (t := ⟨out ++ p.output, .function f :: (p.operators ++ floor)⟩) rfl]
      simpa [Pending.output, Pending.operators] using read
    · rw [Chain.climb_eq_tree] at written
      simp only [Group.chain, Pending.climb, ← Pending.output_collapse, Tree.postorder,
        List.map_append, List.map_cons, ← List.append_assoc, written]
      simp [Waiting.token]
  | .more x o rest =>
    obtain ⟨first, later⟩ : x.proper = true ∧ rest.proper = true := by
      simpa [Group.proper] using proper
    obtain ⟨left, released⟩ := Pending.release_absorb bottom o p x.tree
    have operand := placeAll_operand x first position ⟨out ++ p.output, p.operators ++ floor⟩ h
    obtain ⟨s, read, ends⟩ := placeAll_group rest later (position + x.tokens.length + 1) out
      ((o, (p.absorb o x.tree).2) :: (p.absorb o x.tree).1) floor bottom
      (by simp [Pending.operators, Waiting.isFunction])
    refine ⟨s, ?_, ends⟩
    simp only [Group.tokens, elements, List.map_append, List.map_cons]
    rw [placeAll_append_ok operand, List.length_map]
    rw [placeAll_cons_ok (t := ⟨out ++ p.output ++ x.tree.postorder ++
      (release o (p.operators ++ floor)).1, .operator o :: (release o (p.operators ++ floor)).2⟩) rfl]
    rw [left]
    simpa [Pending.output, Pending.operators, ← released] using read

end

theorem placeAll_start (g : Group) (proper : g.proper = true) :
    ∃ s, placeAll 0 .start (elements g.tokens) = .ok s ∧ s.Ends [] g.tree.postorder := by
  have read := placeAll_group g proper 0 [] [] [] (by simp) (by simp [Pending.operators])
  rw [Chain.climb_eq_tree] at read
  exact read

/-- **Ordering is correct.** The postfix order of a group's tokens is the
postorder of its parse tree, whatever is nested in it. -/
theorem postfixOrder_eq_postorder (g : Group) (proper : g.proper = true) :
    postfixOrder (elements g.tokens) = .ok g.tree.postorder := by
  obtain ⟨s, read, ends⟩ := placeAll_start g proper
  rw [postfixOrder, read]
  exact finish_of_ends ends

/-- The group `2 ^ e ^ sin ( 2 - pi ) / neg ln 2 + e`, where the last two functions
take all that follows them. -/
def nested : Group :=
  let two : Operand := .number ⟨"2", by decide⟩
  .more two .power <| .more (.constant .e) .power <|
    .more (.call .sin (.more two .subtract (.last (.constant .pi)))) .divide <|
      .bare .neg <| .bare .ln <| .more two .add <| .last (.constant .e)

theorem postfixOrder_nested : nested.proper = true ∧
    postfixOrder (elements nested.tokens) = .ok
      [.number ⟨"2", by decide⟩, .constant .e, .number ⟨"2", by decide⟩, .constant .pi,
        .operator .subtract, .function .sin, .operator .power, .operator .power,
        .number ⟨"2", by decide⟩, .constant .e, .operator .add, .function .ln,
        .function .neg, .operator .divide] :=
  ⟨by decide, postfixOrder_eq_postorder nested (by decide)⟩

end DeskCalculator.Expr
