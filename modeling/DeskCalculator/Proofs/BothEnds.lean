import DeskCalculator.Proofs.LastOperand
import Mathlib.Data.List.Induction

/-!
# A parenthesis found from either end

Ordering reads an expression forwards and closes the parenthesis that came last of those that
wait. The operand at the end is looked for backwards, by counting. `Held` is what waits together
with its place in the expression, so that both can be compared: the yard holds nothing else
(`thing_holdAll`), and what is balanced leaves the parentheses that wait as they were
(`openings_holdAll`). So both find the same parenthesis: `groupStart?_agrees`.
-/

namespace DeskCalculator.Expr

/-- What waits in the yard, and the place where it stands in the sequence. -/
structure Held where
  thing : Waiting
  place : Nat

namespace Held

def isOpening (h : Held) : Bool := h.thing = .opening

/-- Whether it is an operator that is complete once the next one comes. -/
def yieldsTo (next : Operator) (h : Held) : Bool :=
  match h.thing with
  | .operator o => o.yieldsTo next
  | _ => false

/-- A function on top takes the group that has just been closed. -/
def take : List Held → List Held
  | ⟨.function _, _⟩ :: below => below
  | hs => hs

/-- What waits, the latest first, once an element has come at the given place. -/
def hold (position : Nat) (hs : List Held) : Element → List Held
  | .token (.operator o) => ⟨.operator o, position⟩ :: hs.dropWhile (yieldsTo o)
  | .token (.function f) => ⟨.function f, position⟩ :: hs
  | .token .opening => ⟨.opening, position⟩ :: hs
  | .token .closing => take (hs.dropWhile fun h => !h.isOpening).tail
  | _ => hs

def holdAll (position : Nat) (hs : List Held) : List Element → List Held
  | [] => hs
  | x :: rest => holdAll (position + 1) (hold position hs x) rest

theorem holdAll_append (position : Nat) (hs : List Held) (xs ys : List Element) :
    holdAll position hs (xs ++ ys) =
      holdAll (position + xs.length) (holdAll position hs xs) ys := by
  induction xs generalizing position hs with
  | nil => rfl
  | cons x xs ih =>
    rw [List.cons_append, holdAll, holdAll, ih, List.length_cons, Nat.add_right_comm, Nat.add_assoc]

/-! The yard holds the same things -/

theorem thing_release (next : Operator) (hs : List Held) :
    (hs.dropWhile (yieldsTo next)).map thing = (Yard.release next (hs.map thing)).2 := by
  induction hs with
  | nil => rfl
  | cons h hs ih =>
    obtain ⟨w, i⟩ := h
    cases w with
    | operator o =>
      by_cases yields : o.yieldsTo next = true
      · simpa [yieldsTo, Yard.release, yields] using ih
      · simp [yieldsTo, Yard.release, yields]
    | function f => rfl
    | opening => rfl

theorem thing_close? {hs : List Held} {out : List Token} {below : List Waiting}
    (closed : Yard.close? (hs.map thing) = some (out, below)) :
    (hs.dropWhile fun h => !h.isOpening).tail.map thing = below := by
  induction hs generalizing out with
  | nil => cases closed
  | cons h hs ih =>
    obtain ⟨w, i⟩ := h
    cases w with
    | opening =>
      cases closed
      rfl
    | operator o =>
      obtain ⟨⟨above, left⟩, inner, same⟩ := Option.map_eq_some_iff.mp closed
      cases same
      exact ih inner
    | function f =>
      obtain ⟨⟨above, left⟩, inner, same⟩ := Option.map_eq_some_iff.mp closed
      cases same
      exact ih inner

theorem thing_take (hs : List Held) : (take hs).map thing = (Yard.take (hs.map thing)).2 := by
  rcases hs with _ | ⟨⟨w, i⟩, below⟩
  · rfl
  · cases w <;> rfl

theorem thing_hold {hs : List Held} {s s' : Yard} (same : hs.map thing = s.waiting)
    {position : Nat} {x : Element} (placed : Yard.place position s x = .ok s') :
    (hold position hs x).map thing = s'.waiting := by
  cases x with
  | stray text => cases placed
  | token t =>
    cases t with
    | number n =>
      cases placed
      exact same
    | constant c =>
      cases placed
      exact same
    | operator o =>
      cases placed
      rw [hold, List.map_cons, thing_release, same]
    | function f =>
      cases placed
      rw [hold, List.map_cons, same]
    | opening =>
      cases placed
      rw [hold, List.map_cons, same]
    | closing =>
      rw [Yard.place] at placed
      split at placed
      · cases placed
      · rename_i out below closed
        cases placed
        rw [← same] at closed
        rw [hold, thing_take, thing_close? closed]
        rfl

/-- **What is held is what waits in the yard,** each thing with its place. -/
theorem thing_holdAll {hs : List Held} {s s' : Yard} (same : hs.map thing = s.waiting)
    {position : Nat} {xs : List Element} (placed : Yard.placeAll position s xs = .ok s') :
    (holdAll position hs xs).map thing = s'.waiting := by
  induction xs generalizing position hs s with
  | nil =>
    cases placed
    exact same
  | cons x xs ih =>
    obtain ⟨t, first, rest⟩ := bind_eq_ok.mp placed
    exact ih (thing_hold same first) rest

/-! Parentheses that wait -/

/-- The place of the parenthesis that a closing one closes: the latest that waits. -/
def Closes (hs : List Held) (j : Nat) : Prop :=
  ∃ above below, hs = above ++ ⟨.opening, j⟩ :: below ∧ ∀ h ∈ above, h.thing ≠ .opening

def openings (hs : List Held) : List Held := hs.filter isOpening

theorem openings_dropWhile {p : Held → Bool} (h : ∀ x, p x = true → x.isOpening = false)
    (hs : List Held) : openings (hs.dropWhile p) = openings hs := by
  induction hs with
  | nil => rfl
  | cons x hs ih =>
    rw [List.dropWhile_cons]
    split
    · rename_i dropped
      rw [ih, openings, openings, List.filter_cons_of_neg (by simp [h x dropped])]
    · rfl

theorem openings_take (hs : List Held) : openings (take hs) = openings hs := by
  rcases hs with _ | ⟨⟨w, i⟩, below⟩
  · rfl
  · cases w <;> rfl

/-- Closing takes away the latest parenthesis that waits, and no other. -/
theorem openings_close (hs : List Held) :
    openings (hs.dropWhile fun h => !h.isOpening).tail = (openings hs).tail := by
  induction hs with
  | nil => rfl
  | cons h hs ih =>
    cases opening : h.isOpening with
    | true => simp [openings, opening]
    | false => simpa [openings, opening] using ih

theorem openings_hold {n k : Nat} {x : Element} (h : deepen n x = some k) (position : Nat)
    (hs : List Held) : (openings (hold position hs x)).drop k = (openings hs).drop n := by
  cases x with
  | stray text => cases h; rfl
  | token t =>
    cases t with
    | operator o =>
      cases h
      have free : ∀ x, yieldsTo o x = true → x.isOpening = false := by
        rintro ⟨w, i⟩ yields
        cases w with
        | opening => cases yields
        | _ => rfl
      rw [hold, openings, List.filter_cons_of_neg (by simp [isOpening])]
      exact congrArg _ (openings_dropWhile free hs)
    | opening => cases h; rfl
    | closing =>
      rw [deepen] at h
      split at h
      · cases h
      · cases h
        rename_i some
        rw [hold, openings_take, openings_close, List.drop_tail, Nat.sub_one_add_one some]
    | _ => cases h; rfl

/-- Tokens that change the depth by so much change the parentheses that wait by as many, and
leave those below. -/
theorem openings_holdAll {n k : Nat} {xs : List Element} (h : depth? n xs = some k)
    (position : Nat) (hs : List Held) :
    (openings (holdAll position hs xs)).drop k = (openings hs).drop n := by
  induction xs generalizing n position hs with
  | nil =>
    cases h
    rfl
  | cons x xs ih =>
    obtain ⟨l, here, rest⟩ := depth?_cons_eq_some.mp h
    rw [holdAll, ih rest, openings_hold here]

end Held

/-- Placing fails at nothing but a parenthesis that closes none. -/
theorem exists_depth?_of_placeAll {ts : List Token} {s : Yard}
    (placed : Yard.placeAll 0 .start (elements ts) = .ok s) :
    ∃ k, depth? 0 (elements ts) = some k ∧ s.opened = k := by
  have tokens : ∀ text, .stray text ∉ elements ts := by simp
  cases depth : depth? 0 (elements ts) with
  | none =>
    obtain ⟨a, b, split, early⟩ := exists_of_depth?_eq_none depth
    rw [split] at placed tokens
    obtain ⟨t, opened, read⟩ := placeAll_start_of_depth?
      (fun text hm => tokens text (List.mem_append_left _ hm)) early (.token .closing :: b)
    rw [read, Yard.placeAll, Yard.place_of_unmatched opened] at placed
    cases placed
  | some k =>
    obtain ⟨t, placed', opened⟩ := Yard.placeAll_of_depth? (s := .start) tokens depth 0
    cases placed.symm.trans placed'
    exact ⟨k, rfl, opened⟩

/-- A closing parenthesis fails just if none is open. -/
theorem placeAll_closing_fails_iff {front : List Token} {y : Yard}
    (read : Yard.placeAll 0 .start (elements front) = .ok y) :
    (∃ f, Yard.placeAll 0 .start (elements (front ++ [.closing])) = .error f) ↔ y.opened = 0 := by
  rw [elements, List.map_append, Yard.placeAll_append_ok read]
  cases opened : y.opened with
  | zero =>
    refine iff_of_true ⟨.unmatchedClosing (0 + (elements front).length), ?_⟩ rfl
    rw [List.map_singleton, Yard.placeAll, Yard.place_of_unmatched opened]
    rfl
  | succ k =>
    obtain ⟨y', placed, -⟩ := Yard.place_of_deepen (s := y) (t := .closing) (k := k)
      (by rw [opened]; rfl) (0 + (elements front).length)
    refine iff_of_false ?_ (Nat.succ_ne_zero k)
    rw [List.map_singleton, Yard.placeAll_cons_ok placed]
    rintro ⟨f, failed⟩
    cases failed

end DeskCalculator.Expr

namespace DeskCalculator.Calculator
open DeskCalculator.Expr

/-- Functions at the end of an expression, and what comes before them. -/
theorem exists_functions (ts : List Token) :
    ∃ (before : List Token) (fs : List Function), ts = before ++ fs.map .function ∧
      ∀ f, before.getLast? ≠ some (.function f) := by
  induction ts using List.reverseRecOn with
  | nil => exact ⟨[], [], rfl, by simp⟩
  | append_singleton ts t ih =>
    obtain ⟨before, fs, rfl, bare⟩ := ih
    cases t with
    | function f => exact ⟨before, fs ++ [f], by simp, bare⟩
    | _ => exact ⟨_, [], (List.append_nil _).symm, fun f => by rw [List.getLast?_concat]; simp⟩

/-- Of the parentheses that are open the last one splits an expression. -/
theorem exists_opening {ts : List Token} {k : Nat} (h : depth? 0 (elements ts) = some (k + 1)) :
    ∃ a inner, ts = a ++ .opening :: inner ∧ Balanced (elements inner) := by
  obtain ⟨a, inner, split, -, balanced⟩ := exists_of_depth?_eq_succ h
  obtain ⟨a, rest, rfl, rfl, same⟩ := List.map_eq_append_iff.mp split
  obtain ⟨t, inner, rfl, first, rfl⟩ := List.map_eq_cons_iff.mp same
  cases first
  exact ⟨a, inner, rfl, balanced⟩

theorem groupStart?_eq_none {front : List Token} (balanced : Balanced (elements front)) :
    groupStart? (front ++ [.closing]) = none := by
  have inside := groupLength?_reverse balanced 0 []
  simp only [List.append_nil, Nat.zero_add] at inside
  simp [groupStart?, groupLength?, inside]

theorem closes_holdAll {a inner : List Token} (balanced : Balanced (elements inner)) :
    Held.Closes (Held.holdAll 0 [] (elements (a ++ .opening :: inner))) a.length := by
  have kept := Held.openings_holdAll balanced (a.length + 1)
    (⟨.opening, a.length⟩ :: Held.holdAll 0 [] (elements a))
  have read : Held.holdAll 0 [] (elements (a ++ .opening :: inner)) =
      Held.holdAll (a.length + 1) (⟨.opening, a.length⟩ :: Held.holdAll 0 [] (elements a))
        (elements inner) := by
    rw [elements, List.map_append, Held.holdAll_append, List.map_cons, Held.holdAll]
    simp [Held.hold]
  rw [List.drop_zero, List.drop_zero, ← read] at kept
  obtain ⟨above, below, same, closed, -, -⟩ := List.filter_eq_cons_iff.mp kept
  exact ⟨above, below, same, fun h hm => by simpa [Held.isOpening] using closed h hm⟩

/-- Between where the operand starts and its parenthesis stand functions. -/
theorem getElem?_function (before inner : List Token) {fs : List Function} {k : Nat}
    (low : before.length ≤ k) (high : k < before.length + fs.length) :
    ∃ f, (before ++ parenthesised fs inner)[k]? = some (.function f) := by
  have inside : k - before.length < fs.length := by omega
  refine ⟨fs[k - before.length], ?_⟩
  rw [List.getElem?_append_right low, parenthesised, List.append_assoc,
    List.getElem?_append_left (by simpa using inside)]
  simp [inside]

theorem getElem?_bare {before : List Token} (bare : ∀ f, before.getLast? ≠ some (.function f))
    (ts : List Token) (pos : 0 < before.length) (f : Function) :
    (before ++ ts)[before.length - 1]? ≠ some (.function f) := by
  rw [List.getElem?_append_left (by omega), ← List.getLast?_eq_getElem?]
  exact bare f

/-- **The last parenthesis closes the same one from either end.** -/
theorem groupStart?_agrees {s : State} (entry : s.entry = "") {front : List Token}
    (ends : s.tokens = front ++ [.closing]) {y : Yard}
    (read : Yard.placeAll 0 .start (elements front) = .ok y) :
    let held := Held.holdAll 0 [] (elements front)
    held.map Held.thing = y.waiting ∧
    (groupStart? s.tokens = none ↔ ∃ f, Yard.placeAll 0 .start (elements s.tokens) = .error f) ∧
    (groupStart? s.tokens = none → s.operand = .absent) ∧
    ∀ i, groupStart? s.tokens = some i →
      s.operand = .group (s.tokens.take i) (s.tokens.drop i) ∧
      ∃ j, Held.Closes held j ∧ s.tokens[j]? = some .opening ∧ i ≤ j ∧
        (∀ k, i ≤ k → k < j → ∃ f, s.tokens[k]? = some (.function f)) ∧
        (0 < i → ∀ f, s.tokens[i - 1]? ≠ some (.function f)) := by
  intro held
  obtain ⟨k, depth, opened⟩ := exists_depth?_of_placeAll read
  have things : held.map Held.thing = y.waiting := Held.thing_holdAll rfl read
  have fails := ends ▸ placeAll_closing_fails_iff read
  have last : s.tokens.getLast? = some .closing := by rw [ends, List.getLast?_concat]
  have operand := State.operand_of_tokens entry (by simp [ends] : s.tokens ≠ [])
  cases k with
  | zero =>
    have none : groupStart? s.tokens = none := ends ▸ groupStart?_eq_none depth
    refine ⟨things, iff_of_true none (fails.mpr opened), fun _ => ?_, fun i found => ?_⟩
    · simp only [operand, trailing, last, none]
    · rw [none] at found
      cases found
  | succ k =>
    obtain ⟨a, inner, rfl, balanced⟩ := exists_opening depth
    obtain ⟨before, fs, rfl, bare⟩ := exists_functions a
    have parts : s.tokens = before ++ parenthesised fs inner := by simp [ends, parenthesised]
    have start : groupStart? s.tokens = some before.length :=
      parts ▸ groupStart?_parenthesised fs balanced bare
    refine ⟨things, iff_of_false (by simp [start]) (by simp [fails, opened]), by simp [start], ?_⟩
    intro i found
    cases start.symm.trans found
    refine ⟨by simp only [operand, trailing, last, start], _, closes_holdAll balanced,
      ?_, ?_, ?_, ?_⟩
    · simp [ends]
    · simp
    · intro k low high
      rw [List.length_append, List.length_map] at high
      rw [parts]
      exact getElem?_function before inner low high
    · intro pos f
      rw [parts]
      exact getElem?_bare bare _ pos f

/-- The group behind `( 2 * sin cos` is the operand, and its functions with it. -/
theorem groupStart?_agrees_open :
    let two : Token := .number ⟨"2", by decide⟩
    let front : List Token := [.opening, two, .operator .multiply, .function .sin, .function .cos,
      .opening, two, .operator .add, .opening, .constant .e, .closing]
    let s : State := { tokens := front ++ [.closing] }
    (∃ y, Yard.placeAll 0 .start (elements front) = .ok y) ∧
    s.operand = .group (s.tokens.take 3) (s.tokens.drop 3) ∧
    ∃ j, Held.Closes (Held.holdAll 0 [] (elements front)) j ∧ s.tokens[j]? = some .opening ∧
      3 ≤ j ∧ (∀ k, 3 ≤ k → k < j → ∃ f, s.tokens[k]? = some (.function f)) ∧
      (0 < 3 → ∀ f, s.tokens[3 - 1]? ≠ some (.function f)) := by
  intro two front s
  have read : ∃ y, Yard.placeAll 0 .start (elements front) = .ok y := ⟨_, rfl⟩
  obtain ⟨y, placed⟩ := read
  obtain ⟨-, -, -, found⟩ := groupStart?_agrees (s := s) rfl rfl placed
  exact ⟨⟨y, placed⟩, found 3 (by decide)⟩

end DeskCalculator.Calculator
