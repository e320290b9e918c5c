import DeskCalculator.Proofs.Verdict

/-!
# Tokens read inside parentheses

Inside parentheses nothing that waits around them is touched (`Yard.placeAll_on`), so what is
in them is ordered as if it stood alone (`Yard.placeAll_enclosed`), and then taken by the
function in front of them. Of several functions there only the last one takes it at once; the
others wait, and an operator behind the parentheses comes in front of them
(`postfixOrder_behind`). All that a sequence needs for this is to be balanced:
`placeAll_balanced`.
-/

namespace DeskCalculator.Expr

theorem bind_eq_ok {ε α β : Type} {x : Except ε α} {f : α → Except ε β} {b : β} :
    x >>= f = .ok b ↔ ∃ a, x = .ok a ∧ f a = .ok b := by
  cases x with
  | error e => simp [bind, Except.bind]
  | ok a => simp [bind, Except.bind]

namespace Yard

/-- The yard on top of what was written before and of what waits below. -/
def on (out : List Token) (floor : List Waiting) (s : Yard) : Yard :=
  ⟨out ++ s.output, s.waiting ++ floor⟩

section Floor
variable {out : List Token} {floor : List Waiting}

theorem release_append (h : ∀ w ∈ floor.head?, w = .opening) (next : Operator)
    (ws : List Waiting) :
    release next (ws ++ floor) = ((release next ws).1, (release next ws).2 ++ floor) := by
  induction ws with
  | nil =>
    cases floor with
    | nil => rfl
    | cons w floor =>
      rw [h w rfl]
      rfl
  | cons w ws ih =>
    cases w with
    | operator o =>
      simp only [List.cons_append, release]
      split
      · rw [ih]
      · rfl
    | function f => rfl
    | opening => rfl

theorem close?_append_floor {ws below : List Waiting} {ts : List Token}
    (h : close? ws = some (ts, below)) : close? (ws ++ floor) = some (ts, below ++ floor) := by
  induction ws generalizing ts with
  | nil => cases h
  | cons w ws ih =>
    cases w with
    | opening =>
      cases h
      rfl
    | operator o =>
      rw [close?, Option.map_eq_some_iff] at h
      obtain ⟨⟨above, left⟩, inner, same⟩ := h
      cases same
      simp [close?, ih inner]
    | function f =>
      rw [close?, Option.map_eq_some_iff] at h
      obtain ⟨⟨above, left⟩, inner, same⟩ := h
      cases same
      simp [close?, ih inner]

theorem take_append (h : ∀ w ∈ floor.head?, w = .opening) (ws : List Waiting) :
    take (ws ++ floor) = ((take ws).1, (take ws).2 ++ floor) := by
  cases ws with
  | nil =>
    rw [List.nil_append, take_of_not_function]
    · rfl
    · intro w head
      rw [h w head]
      rfl
  | cons w ws =>
    cases w with
    | function f => rfl
    | operator o => rfl
    | opening => rfl

/-- What can be placed can be placed on top of other work, and leaves that as it is. Where it
stands in the sequence does not matter. -/
theorem place_on (h : ∀ w ∈ floor.head?, w = .opening) {s s' : Yard} {x : Element} {i : Nat}
    (placed : place i s x = .ok s') (j : Nat) :
    place j (s.on out floor) x = .ok (s'.on out floor) := by
  cases x with
  | stray text => cases placed
  | token t =>
    cases t with
    | number n =>
      cases placed
      simp [place, on]
    | constant c =>
      cases placed
      simp [place, on]
    | operator o =>
      cases placed
      simp [place, on, release_append h]
    | function f =>
      cases placed
      rfl
    | opening =>
      cases placed
      rfl
    | closing =>
      simp only [place] at placed
      split at placed
      · cases placed
      · rename_i closed
        cases placed
        simp [place, on, close?_append_floor closed, take_append h]

theorem placeAll_on (h : ∀ w ∈ floor.head?, w = .opening) {s s' : Yard} {xs : List Element}
    {i : Nat} (placed : placeAll i s xs = .ok s') (j : Nat) :
    placeAll j (s.on out floor) xs = .ok (s'.on out floor) := by
  induction xs generalizing i j s with
  | nil =>
    cases placed
    rfl
  | cons x xs ih =>
    obtain ⟨t, first, rest⟩ := bind_eq_ok.mp placed
    rw [placeAll_cons_ok (place_on h first j)]
    exact ih rest (j + 1)

theorem ends_of_finish {s : Yard} {ts : List Token} (h : s.finish = .ok ts) : s.Ends [] ts := by
  have closed : .opening ∉ s.waiting := by
    intro waits
    simp [finish, drain?_eq_none waits] at h
  refine ⟨s.waiting, (List.append_nil _).symm, closed, ?_⟩
  simpa [finish, drain?_eq_some closed] using h

/-- **Inside parentheses tokens are ordered as if they stood alone**, whatever waits in front
of them, and a function that does takes what is in them. -/
theorem placeAll_enclosed {ts written : List Token}
    (h : postfixOrder (elements ts) = .ok written) (position : Nat) :
    placeAll position ⟨out, floor⟩ (elements (.opening :: ts ++ [.closing])) =
      .ok ⟨out ++ written ++ (take floor).1, (take floor).2⟩ := by
  obtain ⟨s, read, finished⟩ := bind_eq_ok.mp h
  obtain ⟨top, waiting, closed, rfl⟩ := ends_of_finish finished
  have inside : placeAll (position + 1) (start.on out (.opening :: floor)) (elements ts) =
      .ok (s.on out (.opening :: floor)) := placeAll_on (by simp) read _
  simp only [start, on, List.append_nil, List.nil_append] at inside
  apply placeAll_parentheses
  refine ⟨_, inside, top, ?_, closed, ?_⟩
  · simpa using waiting
  · simp

/-- Functions that wait are written out from the last one on. -/
theorem ends_functions (ts : List Token) (fs : List Function) :
    Ends ⟨ts, (fs.map .function).reverse⟩ [] (ts ++ fs.reverse.map .function) := by
  refine ⟨_, (List.append_nil _).symm, by simp, ?_⟩
  simp [Waiting.token]

/-- Functions wait, the last one on top. -/
theorem placeAll_functions (fs : List Function) (xs : List Element) (position : Nat) :
    placeAll position ⟨out, floor⟩ (elements (fs.map .function) ++ xs) =
      placeAll (position + fs.length) ⟨out, (fs.map Waiting.function).reverse ++ floor⟩ xs := by
  induction fs generalizing position floor with
  | nil => rfl
  | cons f fs ih =>
    rw [List.map_cons, elements, List.map_cons, List.cons_append,
      placeAll_cons_ok (t := ⟨out, .function f :: floor⟩) rfl, ih]
    simp [Nat.add_assoc, Nat.add_comm 1]

end Floor
end Yard

/-- Functions, and the parentheses behind them. -/
def parenthesised (fs : List Function) (inner : List Token) : List Token :=
  fs.map .function ++ .opening :: inner ++ [.closing]

section Order
variable {inner ts : List Token}

theorem postfixOrder_of_balanced (h : Balanced (elements inner)) :
    ∃ ts, postfixOrder (elements inner) = .ok ts := by
  apply postfixOrder_of_closed ⟨matched_iff.mpr ⟨0, h⟩, by simp⟩
  intro unclosed
  exact (exists_unclosed_iff h).mp unclosed rfl

theorem balanced_of_postfixOrder (h : postfixOrder (elements inner) = .ok ts) :
    Balanced (elements inner) := by
  have verdict := verdict_postfixOrder (elements inner)
  rw [h] at verdict
  cases verdict with
  | ordered outcome =>
    obtain ⟨k, depth⟩ := matched_iff.mp outcome.1.1
    have closed : ¬ k ≠ 0 := fun some => outcome.2 ((exists_unclosed_iff depth).mpr some)
    rwa [Decidable.not_not.mp closed] at depth

theorem postfixOrder_parentheses (h : postfixOrder (elements inner) = .ok ts) :
    postfixOrder (elements (.opening :: inner ++ [.closing])) = .ok ts := by
  have read : Yard.placeAll 0 .start (elements (.opening :: inner ++ [.closing])) =
      .ok ⟨[] ++ ts ++ (Yard.take []).1, (Yard.take []).2⟩ := Yard.placeAll_enclosed h 0
  rw [postfixOrder, read]
  simp [Yard.take, Yard.finish, Yard.drain?, bind, Except.bind]

/-- The last function in front of parentheses takes them at once, and the others wait. -/
theorem placeAll_parenthesised (h : postfixOrder (elements inner) = .ok ts) (fs : List Function)
    (xs : List Element) :
    Yard.placeAll 0 .start (elements (parenthesised fs inner) ++ xs) =
      Yard.placeAll (parenthesised fs inner).length
        ⟨ts ++ fs.getLast?.toList.map .function, (fs.dropLast.map .function).reverse⟩ xs := by
  have taken : Yard.take ((fs.map .function).reverse ++ []) =
      (fs.getLast?.toList.map .function, (fs.dropLast.map .function).reverse) := by
    rcases List.eq_nil_or_concat fs with rfl | ⟨outer, f, rfl⟩
    · rfl
    · simp [Yard.take]
  have parts : elements (parenthesised fs inner) ++ xs =
      elements (fs.map .function) ++ (elements (.opening :: inner ++ [.closing]) ++ xs) := by
    simp [parenthesised]
  have length : 0 + fs.length + (elements (.opening :: inner ++ [.closing])).length =
      (parenthesised fs inner).length := by
    simp [parenthesised]
  rw [parts, Yard.start, Yard.placeAll_functions,
    Yard.placeAll_append_ok (Yard.placeAll_enclosed h _), taken, List.nil_append, length]

theorem postfixOrder_parenthesised (h : postfixOrder (elements inner) = .ok ts)
    (fs : List Function) :
    postfixOrder (elements (parenthesised fs inner)) = .ok (ts ++ fs.reverse.map .function) := by
  have read := placeAll_parenthesised h fs []
  rw [List.append_nil, Yard.placeAll] at read
  rw [postfixOrder, read]
  have written : ts ++ fs.getLast?.toList.map Token.function ++
      fs.dropLast.reverse.map Token.function = ts ++ fs.reverse.map .function := by
    rcases List.eq_nil_or_concat fs with rfl | ⟨outer, f, rfl⟩
    · simp
    · simp
  exact written ▸ Yard.finish_of_ends (Yard.ends_functions _ _)

/-- Behind parentheses an operator comes in front of the functions that wait there. -/
theorem postfixOrder_behind (h : postfixOrder (elements inner) = .ok ts)
    (fs : List Function) (o : Operator) (n : Numeral) :
    postfixOrder (elements (parenthesised fs inner ++ [.operator o, .number n])) =
      .ok (ts ++ fs.getLast?.toList.map .function ++ [.number n, .operator o] ++
        fs.dropLast.reverse.map .function) := by
  have read := placeAll_parenthesised h fs (elements [.operator o, .number n])
  have released : Yard.release o (fs.dropLast.map .function).reverse =
      ([], (fs.dropLast.map .function).reverse) := by
    rcases List.eq_nil_or_concat fs.dropLast with none | ⟨outer, f, some⟩
    · rw [none]
      rfl
    · simp [some, Yard.release]
  rw [postfixOrder, elements, List.map_append, read]
  simp only [elements, List.map_cons, List.map_nil, Yard.placeAll, Yard.place, released]
  generalize fs.dropLast = outer
  apply Yard.finish_of_ends
  refine ⟨_, (List.append_nil _).symm, by simp, ?_⟩
  simp [Waiting.token]

end Order

/-- **A balanced group is ordered by itself** wherever it stands, whether or not it is well
formed: behind its parentheses the output has grown by its postfix order, and what waited in
front of them waits still, but for a function on top, which is written out. So parentheses
around a balanced sequence do not change its order. -/
theorem placeAll_balanced {inner : List Token} (balanced : Balanced (elements inner)) :
    ∃ written, postfixOrder (elements inner) = .ok written ∧
      (∀ position out floor,
        Yard.placeAll position ⟨out, floor⟩ (elements (.opening :: inner ++ [.closing])) =
          .ok (match floor with
            | .function f :: below => ⟨out ++ written ++ [.function f], below⟩
            | _ => ⟨out ++ written, floor⟩)) ∧
      postfixOrder (elements (.opening :: inner ++ [.closing])) = .ok written := by
  obtain ⟨written, ordered⟩ := postfixOrder_of_balanced balanced
  refine ⟨written, ordered, fun position out floor => ?_, postfixOrder_parentheses ordered⟩
  rw [Yard.placeAll_enclosed ordered]
  rcases floor with _ | ⟨w, below⟩
  · simp [Yard.take]
  · cases w <;> simp [Yard.take]

/-- What stands in these parentheses, `+ ( 2 * ) 2 cos`, is balanced but no expression. -/
theorem placeAll_balanced_scrambled :
    let two : Token := .number ⟨"2", by decide⟩
    let inner : List Token := [.operator .add, .opening, two, .operator .multiply, .closing, two,
      .function .cos]
    Balanced (elements inner) ∧
    Yard.placeAll 3 ⟨[two], [.function .sin, .operator .power]⟩
        (elements (.opening :: inner ++ [.closing])) =
      .ok ⟨[two, two, .operator .multiply, two, .function .cos, .operator .add, .function .sin],
        [.operator .power]⟩ := by
  intro two inner
  have balanced : Balanced (elements inner) := by decide
  obtain ⟨written, ordered, anywhere, -⟩ := placeAll_balanced balanced
  have order : postfixOrder (elements inner) =
      .ok [two, .operator .multiply, two, .function .cos, .operator .add] := rfl
  obtain rfl : _ = written := Except.ok.inj (order.symm.trans ordered)
  exact ⟨balanced, anywhere 3 [two] [.function .sin, .operator .power]⟩

end DeskCalculator.Expr
