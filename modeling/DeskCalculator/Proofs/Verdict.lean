import DeskCalculator.Proofs.Parentheses

/-!
# What ordering says of a sequence

Ordering keeps no count of parentheses. Those still open are those that wait in the yard,
however operators and functions come and go around them (`place_of_deepen`), so its verdict on a
sequence is that of its parentheses: `postfixOrder_verdict`.
-/

namespace DeskCalculator.Expr

/-! Parentheses that wait -/

namespace Yard

/-- The opening parentheses that wait. -/
def opened (s : Yard) : Nat := s.waiting.count .opening

theorem count_release (next : Operator) (ws : List Waiting) :
    (release next ws).2.count .opening = ws.count .opening := by
  induction ws with
  | nil => rfl
  | cons w ws ih =>
    cases w with
    | operator o =>
      rw [release]
      split
      · rw [ih, List.count_cons_of_ne (by simp)]
      · rfl
    | function f => rfl
    | opening => rfl

theorem count_take (ws : List Waiting) : (take ws).2.count .opening = ws.count .opening := by
  cases ws with
  | nil => rfl
  | cons w ws =>
    cases w with
    | function f => rw [take, List.count_cons_of_ne (by simp)]
    | operator o => rfl
    | opening => rfl

theorem close?_eq_none {ws : List Waiting} (h : .opening ∉ ws) : close? ws = none := by
  induction ws with
  | nil => rfl
  | cons w ws ih =>
    have below := ih fun hm => h (List.mem_cons_of_mem _ hm)
    cases w with
    | opening => exact absurd List.mem_cons_self h
    | operator o => simp [close?, below]
    | function f => simp [close?, below]

theorem drain?_eq_none {ws : List Waiting} (h : .opening ∈ ws) : drain? ws = none := by
  induction ws with
  | nil => cases h
  | cons w ws ih =>
    cases w with
    | opening => rfl
    | operator o => simp [drain?, ih (by simpa using h)]
    | function f => simp [drain?, ih (by simpa using h)]

/-- **The yard counts parentheses** by those that wait in it, whatever else waits. -/
theorem place_of_deepen {s : Yard} {t : Token} {k : Nat}
    (h : deepen s.opened (.token t) = some k) (position : Nat) :
    ∃ s', place position s (.token t) = .ok s' ∧ s'.opened = k := by
  cases t with
  | number n => exact ⟨_, rfl, Option.some.inj h⟩
  | constant c => exact ⟨_, rfl, Option.some.inj h⟩
  | operator o =>
    refine ⟨_, rfl, ?_⟩
    rw [opened, List.count_cons_of_ne (by simp), count_release]
    exact Option.some.inj h
  | function f =>
    refine ⟨_, rfl, ?_⟩
    rw [opened, List.count_cons_of_ne (by simp)]
    exact Option.some.inj h
  | opening =>
    refine ⟨_, rfl, ?_⟩
    rw [opened, List.count_cons_self]
    exact Option.some.inj h
  | closing =>
    rw [deepen] at h
    split at h
    · cases h
    · rename_i some
      obtain ⟨top, floor, split, closed⟩ :=
        List.eq_append_cons_of_mem (List.count_pos_iff.mp (Nat.pos_of_ne_zero some))
      refine ⟨⟨s.output ++ top.map Waiting.token ++ (take floor).1, (take floor).2⟩, ?_, ?_⟩
      · simp only [place, split, close?_append closed]
      · rw [← Option.some.inj h, opened, opened, split, count_take, List.count_append,
          List.count_eq_zero.mpr closed, List.count_cons_self]
        omega

theorem place_of_unmatched {s : Yard} (h : s.opened = 0) (position : Nat) :
    place position s (.token .closing) = .error (.unmatchedClosing position) := by
  simp only [place, close?_eq_none (List.count_eq_zero.mp h)]

theorem placeAll_of_depth? {s : Yard} {xs : List Element} {k : Nat}
    (tokens : ∀ text, .stray text ∉ xs) (h : depth? s.opened xs = some k) (position : Nat) :
    ∃ s', placeAll position s xs = .ok s' ∧ s'.opened = k := by
  induction xs generalizing position s with
  | nil => exact ⟨s, rfl, Option.some.inj h⟩
  | cons x xs ih =>
    cases x with
    | stray text => exact absurd List.mem_cons_self (tokens text)
    | token t =>
      obtain ⟨l, here, rest⟩ := depth?_cons_eq_some.mp h
      obtain ⟨s', placed, rfl⟩ := place_of_deepen here position
      rw [placeAll_cons_ok placed]
      exact ih (fun text hm => tokens text (List.mem_cons_of_mem _ hm)) rest (position + 1)

end Yard

/-! What ordering says of a sequence -/

/-- The first closing parenthesis that closes none, with tokens only in front of it. -/
def ClosesEarly (xs : List Element) (p : Nat) : Prop :=
  (Unmatched xs p ∧ ∀ q < p, ¬ Unmatched xs q) ∧ ∀ q < p, ∀ text, xs[q]? ≠ some (.stray text)

/-- The first text that is no token, and no closing parenthesis in front of it closes none. -/
def Strays (xs : List Element) (text : String) : Prop :=
  ∃ p, xs[p]? = some (.stray text) ∧ (∀ q < p, ∀ other, xs[q]? ≠ some (.stray other)) ∧
    ∀ q < p, ¬ Unmatched xs q

/-- All are tokens, and each closing parenthesis closes one. -/
def Orderly (xs : List Element) : Prop := (∀ p, ¬ Unmatched xs p) ∧ ∀ text, .stray text ∉ xs

theorem tokens_before_iff {a b : List Element} :
    (∀ q < a.length, ∀ text, (a ++ b)[q]? ≠ some (.stray text)) ↔ ∀ text, .stray text ∉ a := by
  constructor
  · intro tokens text stray
    obtain ⟨q, bound, here⟩ := List.getElem_of_mem stray
    apply tokens q bound text
    rw [List.getElem?_append_left bound, List.getElem?_eq_getElem bound, here]
  · intro tokens q bound text here
    rw [List.getElem?_append_left bound] at here
    exact tokens text (List.mem_of_getElem? here)

theorem closesEarly_iff {xs : List Element} {p : Nat} :
    ClosesEarly xs p ↔ ∃ a b, xs = a ++ .token .closing :: b ∧ a.length = p ∧ Balanced a ∧
      ∀ text, .stray text ∉ a := by
  rw [ClosesEarly, first_unmatched_iff]
  constructor
  · rintro ⟨⟨a, b, rfl, rfl, balanced⟩, tokens⟩
    exact ⟨a, b, rfl, rfl, balanced, tokens_before_iff.mp tokens⟩
  · rintro ⟨a, b, rfl, rfl, balanced, tokens⟩
    exact ⟨⟨a, b, rfl, rfl, balanced⟩, tokens_before_iff.mpr tokens⟩

theorem strays_iff {xs : List Element} {text : String} :
    Strays xs text ↔ ∃ a b k, xs = a ++ .stray text :: b ∧ depth? 0 a = some k ∧
      ∀ other, .stray other ∉ a := by
  constructor
  · rintro ⟨p, stray, tokens, matched⟩
    obtain ⟨a, b, rfl, rfl⟩ := exists_of_getElem? stray
    cases depth : depth? 0 a with
    | none =>
      obtain ⟨c, d, rfl, early⟩ := exists_of_depth?_eq_none depth
      have unmatched := (unmatched_iff (b := d ++ .stray text :: b) early).mpr rfl
      exact absurd (by simpa using unmatched) (matched c.length (by simp))
    | some k => exact ⟨a, b, k, rfl, depth, tokens_before_iff.mp tokens⟩
  · rintro ⟨a, b, k, rfl, depth, tokens⟩
    exact ⟨a.length, by simp, tokens_before_iff.mpr tokens,
      fun q => not_unmatched_of_depth? depth _⟩

/-- A sequence is orderly, or there is a first element at which it is not. -/
theorem orderly_or (xs : List Element) :
    (∃ p, ClosesEarly xs p) ∨ (∃ text, Strays xs text) ∨ Orderly xs := by
  by_cases tokens : ∀ text, .stray text ∉ xs
  · cases depth : depth? 0 xs with
    | none =>
      obtain ⟨a, b, rfl, early⟩ := exists_of_depth?_eq_none depth
      refine .inl ⟨a.length, closesEarly_iff.mpr ⟨a, b, rfl, rfl, early, ?_⟩⟩
      exact fun text hm => tokens text (List.mem_append_left _ hm)
    | some k => exact .inr (.inr ⟨matched_iff.mpr ⟨k, depth⟩, tokens⟩)
  · obtain ⟨text, a, b, rfl, front⟩ : ∃ text a b, xs = a ++ .stray text :: b ∧
        ∀ other, .stray other ∉ a := by
      obtain ⟨text, stray⟩ : ∃ text, .stray text ∈ xs := by simpa using tokens
      clear tokens
      induction xs with
      | nil => cases stray
      | cons x xs ih =>
        cases x with
        | stray here => exact ⟨here, [], xs, rfl, by simp⟩
        | token t =>
          obtain ⟨first, a, b, rfl, front⟩ := ih (by simpa using stray)
          exact ⟨first, .token t :: a, b, rfl, by simpa using front⟩
    cases depth : depth? 0 a with
    | none =>
      obtain ⟨c, d, rfl, early⟩ := exists_of_depth?_eq_none depth
      refine .inl ⟨c.length, closesEarly_iff.mpr ⟨c, d ++ .stray text :: b, ?_, rfl, early, ?_⟩⟩
      · simp
      · exact fun other hm => front other (List.mem_append_left _ hm)
    | some k => exact .inr (.inl ⟨text, strays_iff.mpr ⟨a, b, k, rfl, depth, front⟩⟩)

theorem placeAll_start_of_depth? {a : List Element} {k : Nat} (tokens : ∀ text, .stray text ∉ a)
    (h : depth? 0 a = some k) (b : List Element) :
    ∃ s : Yard, s.opened = k ∧ Yard.placeAll 0 .start (a ++ b) = Yard.placeAll a.length s b := by
  obtain ⟨s, read, opened⟩ := Yard.placeAll_of_depth? (s := .start) tokens h 0
  refine ⟨s, opened, ?_⟩
  rw [Yard.placeAll_append_ok read, Nat.zero_add]

theorem postfixOrder_of_closesEarly {xs : List Element} {p : Nat} (h : ClosesEarly xs p) :
    postfixOrder xs = .error (.unmatchedClosing p) := by
  obtain ⟨a, b, rfl, rfl, balanced, tokens⟩ := closesEarly_iff.mp h
  obtain ⟨s, opened, read⟩ := placeAll_start_of_depth? tokens balanced (.token .closing :: b)
  rw [postfixOrder, read, Yard.placeAll, Yard.place_of_unmatched opened]
  rfl

theorem postfixOrder_of_strays {xs : List Element} {text : String} (h : Strays xs text) :
    postfixOrder xs = .error (.unsupportedToken text) := by
  obtain ⟨a, b, k, rfl, depth, tokens⟩ := strays_iff.mp h
  obtain ⟨s, -, read⟩ := placeAll_start_of_depth? tokens depth (.stray text :: b)
  rw [postfixOrder, read]
  rfl

theorem postfixOrder_of_unclosed {xs : List Element} (orderly : Orderly xs)
    (unclosed : ∃ i, Unclosed xs i) : postfixOrder xs = .error .unclosedOpening := by
  obtain ⟨k, depth⟩ := matched_iff.mp orderly.1
  obtain ⟨s, rfl, read⟩ := placeAll_start_of_depth? orderly.2 depth []
  have waits : .opening ∈ s.waiting :=
    List.count_pos_iff.mp (Nat.pos_of_ne_zero ((exists_unclosed_iff depth).mp unclosed))
  rw [List.append_nil] at read
  rw [postfixOrder, read]
  simp only [Yard.placeAll, bind, Except.bind, Yard.finish, Yard.drain?_eq_none waits]

theorem postfixOrder_of_closed {xs : List Element} (orderly : Orderly xs)
    (closed : ¬ ∃ i, Unclosed xs i) : ∃ ts, postfixOrder xs = .ok ts := by
  obtain ⟨k, depth⟩ := matched_iff.mp orderly.1
  obtain ⟨s, rfl, read⟩ := placeAll_start_of_depth? orderly.2 depth []
  have gone : .opening ∉ s.waiting := by
    intro waits
    exact closed ((exists_unclosed_iff depth).mpr (Nat.ne_of_gt (List.count_pos_iff.mpr waits)))
  rw [List.append_nil] at read
  rw [postfixOrder, read]
  simp only [Yard.placeAll, bind, Except.bind, Yard.finish, Yard.drain?_eq_some gone]
  exact ⟨_, rfl⟩

/-- What may be said of a sequence, and when. -/
inductive Verdict (xs : List Element) : Except Fault (List Token) → Prop
  | early {p : Nat} (h : ClosesEarly xs p) : Verdict xs (.error (.unmatchedClosing p))
  | stray {text : String} (h : Strays xs text) : Verdict xs (.error (.unsupportedToken text))
  | unclosed (h : Orderly xs ∧ ∃ i, Unclosed xs i) : Verdict xs (.error .unclosedOpening)
  | ordered (h : Orderly xs ∧ ¬ ∃ i, Unclosed xs i) (ts : List Token) : Verdict xs (.ok ts)

theorem verdict_postfixOrder (xs : List Element) : Verdict xs (postfixOrder xs) := by
  rcases orderly_or xs with ⟨p, early⟩ | ⟨text, strays⟩ | orderly
  · rw [postfixOrder_of_closesEarly early]
    exact .early early
  · rw [postfixOrder_of_strays strays]
    exact .stray strays
  · by_cases unclosed : ∃ i, Unclosed xs i
    · rw [postfixOrder_of_unclosed orderly unclosed]
      exact .unclosed ⟨orderly, unclosed⟩
    · obtain ⟨ts, outcome⟩ := postfixOrder_of_closed orderly unclosed
      rw [outcome]
      exact .ordered ⟨orderly, unclosed⟩ ts

/-- **What ordering says of a sequence** is what its parentheses say, and texts that are no
tokens: the first one at fault is named, a parenthesis that stays open is reported at the end,
and all else is ordered, in whatever order numbers, operators and functions come. -/
theorem postfixOrder_verdict (xs : List Element) :
    (∀ p, postfixOrder xs = .error (.unmatchedClosing p) ↔ ClosesEarly xs p) ∧
    (∀ text, postfixOrder xs = .error (.unsupportedToken text) ↔ Strays xs text) ∧
    (postfixOrder xs = .error .unclosedOpening ↔ Orderly xs ∧ ∃ i, Unclosed xs i) ∧
    ((∃ ts, postfixOrder xs = .ok ts) ↔ Orderly xs ∧ ¬ ∃ i, Unclosed xs i) := by
  have verdict := verdict_postfixOrder xs
  refine ⟨fun p => ⟨fun outcome => ?_, postfixOrder_of_closesEarly⟩,
    fun text => ⟨fun outcome => ?_, postfixOrder_of_strays⟩,
    ⟨fun outcome => ?_, fun h => postfixOrder_of_unclosed h.1 h.2⟩,
    ⟨fun ⟨ts, outcome⟩ => ?_, fun h => postfixOrder_of_closed h.1 h.2⟩⟩
  · rw [outcome] at verdict
    cases verdict with
    | early h => exact h
  · rw [outcome] at verdict
    cases verdict with
    | stray h => exact h
  · rw [outcome] at verdict
    cases verdict with
    | unclosed h => exact h
  · rw [outcome] at verdict
    cases verdict with
    | ordered h => exact h

end DeskCalculator.Expr
