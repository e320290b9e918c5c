import DeskCalculator.Proofs.Enclosed

/-!
# Where the tokens of a postfix order come from

Tokens move from the sequence into the yard and from there to the output, and at each move only
what waits on top goes (`place_moves`). `Traced` follows each of them with the place it was read
at. So nothing is lost but the parentheses, nothing is written twice, and what is written in
front of a number or constant was read in front of it: `postfixOrder_keeps`.
-/

namespace DeskCalculator.Expr

namespace Token

def isParenthesis : Token → Bool
  | opening | closing => true
  | _ => false

/-- A number or a constant, which does not wait for anything. -/
def isOperand : Token → Bool
  | number _ | constant _ => true
  | _ => false

theorem isParenthesis_of_isOperand {t : Token} (h : t.isOperand = true) :
    t.isParenthesis = false := by
  cases t <;> first | rfl | cases h

end Token

theorem Waiting.isOperand_token (w : Waiting) : w.token.isOperand = false := by
  cases w <;> rfl

namespace Yard

theorem filter_of_closed {ws : List Waiting} (h : .opening ∉ ws) :
    ws.filter (· != .opening) = ws := by
  rw [List.filter_eq_self]
  intro w hw
  exact bne_iff_ne.mpr fun opening => h (opening ▸ hw)

theorem release_split (next : Operator) (ws : List Waiting) :
    ∃ top, ws = top ++ (release next ws).2 ∧ .opening ∉ top ∧
      (release next ws).1 = top.map Waiting.token := by
  induction ws with
  | nil => exact ⟨[], rfl, by simp, rfl⟩
  | cons w ws ih =>
    cases w with
    | operator o =>
      rw [release]
      split
      · obtain ⟨top, split, closed, written⟩ := ih
        exact ⟨.operator o :: top, congrArg _ split, by simp [closed], congrArg _ written⟩
      · exact ⟨[], rfl, by simp, rfl⟩
    | function f => exact ⟨[], rfl, by simp, rfl⟩
    | opening => exact ⟨[], rfl, by simp, rfl⟩

theorem close?_split {ws below : List Waiting} {out : List Token}
    (h : close? ws = some (out, below)) :
    ∃ top, ws = top ++ .opening :: below ∧ .opening ∉ top ∧ out = top.map Waiting.token := by
  have opened : .opening ∈ ws := by
    apply Classical.byContradiction
    intro closed
    rw [close?_eq_none closed] at h
    cases h
  obtain ⟨top, floor, rfl, closed⟩ := List.eq_append_cons_of_mem opened
  rw [close?_append closed] at h
  cases h
  exact ⟨top, rfl, closed, rfl⟩

theorem take_split (ws : List Waiting) :
    ∃ top, ws = top ++ (take ws).2 ∧ .opening ∉ top ∧ (take ws).1 = top.map Waiting.token := by
  cases ws with
  | nil => exact ⟨[], rfl, by simp, rfl⟩
  | cons w ws =>
    cases w with
    | function f => exact ⟨[.function f], rfl, by simp, rfl⟩
    | operator o => exact ⟨[], rfl, by simp, rfl⟩
    | opening => exact ⟨[], rfl, by simp, rfl⟩

/-- What a step does: an operand is written. For any other token the top of what waits goes, which
is written but for parentheses, and then the token waits, if it is no closing parenthesis. -/
theorem place_moves {s s' : Yard} {t : Token} {position : Nat}
    (h : place position s (.token t) = .ok s') :
    t.isOperand = true ∧ s' = ⟨s.output ++ [t], s.waiting⟩ ∨
    t.isOperand = false ∧ ∃ top left new, s.waiting = top ++ left ∧
      new.map Waiting.token = [t].filter (· != .closing) ∧
      s' = ⟨s.output ++ (top.filter (· != .opening)).map Waiting.token, new ++ left⟩ := by
  cases t with
  | number n => exact .inl ⟨rfl, (Except.ok.inj h).symm⟩
  | constant c => exact .inl ⟨rfl, (Except.ok.inj h).symm⟩
  | operator o =>
    obtain ⟨top, split, closed, written⟩ := release_split o s.waiting
    refine .inr ⟨rfl, top, (release o s.waiting).2, [.operator o], split, rfl, ?_⟩
    rw [filter_of_closed closed, ← written]
    exact (Except.ok.inj h).symm
  | function f =>
    refine .inr ⟨rfl, [], s.waiting, [.function f], rfl, rfl, ?_⟩
    simpa using (Except.ok.inj h).symm
  | opening =>
    refine .inr ⟨rfl, [], s.waiting, [.opening], rfl, rfl, ?_⟩
    simpa using (Except.ok.inj h).symm
  | closing =>
    simp only [place] at h
    split at h
    · cases h
    · rename_i out below shut
      obtain ⟨top, split, closed, written⟩ := close?_split shut
      obtain ⟨taken, split', closed', written'⟩ := take_split below
      refine .inr ⟨rfl, top ++ .opening :: taken, (take below).2, [], ?_, rfl, ?_⟩
      · rw [split, List.append_assoc, List.cons_append, ← split']
      · rw [List.filter_append, List.filter_cons_of_neg (by simp), filter_of_closed closed,
          filter_of_closed closed', List.map_append, ← written, ← written', ← List.append_assoc]
        exact (Except.ok.inj h).symm

end Yard

/-- A token and the place it was read at. -/
abbrev Located := Token × Nat

/-- Those that are no parentheses. -/
def lasting (ps : List Located) : List Located := ps.filter fun p => !p.1.isParenthesis

theorem lasting_append (ps qs : List Located) : lasting (ps ++ qs) = lasting ps ++ lasting qs :=
  List.filter_append ..

/-- Of what waits, the parentheses are those that are not written. -/
theorem map_lasting {ps : List Located} {ws : List Waiting}
    (h : ps.map Prod.fst = ws.map Waiting.token) :
    (lasting ps).map Prod.fst = (ws.filter (· != .opening)).map Waiting.token := by
  have same : (fun t : Token => !t.isParenthesis) ∘ Waiting.token = (· != .opening) := by
    funext w
    cases w <;> rfl
  rw [← same, ← List.filter_map, ← h, List.filter_map]
  rfl

/-- A number or constant was read behind what is written in front of it. -/
def Follows (p q : Located) : Prop := q.1.isOperand = true → p.2 < q.2

/-- What has waited may be written at any time. -/
theorem pairwise_follows {written waited : List Located} {ws : List Waiting}
    (h : written.Pairwise Follows) (goes : waited.map Prod.fst = ws.map Waiting.token) :
    (written ++ lasting waited).Pairwise Follows := by
  have follows (p : Located) {q : Located} (hq : q ∈ lasting waited) : Follows p q := by
    intro operand
    obtain ⟨w, -, same⟩ := List.mem_map.mp (goes ▸ List.mem_map_of_mem (List.mem_filter.mp hq).1)
    rw [← same, w.isOperand_token] at operand
    cases operand
  rw [List.pairwise_append]
  exact ⟨h, List.pairwise_of_forall_mem_list fun p _ q => follows p, fun p _ q => follows p⟩

/-- What the yard holds, by the places it was read at. All is there that has been read, but for
parentheses, and nothing is written in front of a number or constant that was read behind it. -/
structure Traced (read : List Located) (s : Yard) (written waiting : List Located) : Prop where
  output : written.map Prod.fst = s.output
  waits : waiting.map Prod.fst = s.waiting.map Waiting.token
  kept : (written ++ lasting waiting).Perm (lasting read)
  ordered : written.Pairwise Follows

namespace Traced
variable {read written waiting : List Located} {s s' : Yard} {t : Token} {position : Nat}

theorem mem_read (h : Traced read s written waiting) {p : Located} (hp : p ∈ written) : p ∈ read :=
  (List.mem_filter.mp (h.kept.subset (List.mem_append_left _ hp))).1

theorem place (h : Traced read s written waiting) (early : ∀ p ∈ read, p.2 < position)
    (placed : Yard.place position s (.token t) = .ok s') :
    ∃ written' waiting', Traced (read ++ [(t, position)]) s' written' waiting' := by
  rcases Yard.place_moves placed with ⟨operand, rfl⟩ | ⟨-, top, left, new, split, entered, rfl⟩
  · refine ⟨written ++ [(t, position)], waiting, ?_, h.waits, ?_, ?_⟩
    · simp [h.output]
    · have here : lasting [(t, position)] = [(t, position)] := by
        simp [lasting, Token.isParenthesis_of_isOperand operand]
      rw [lasting_append, here, List.append_assoc]
      exact (List.perm_append_comm.append_left written).trans
        (by simpa using h.kept.append_right [(t, position)])
    · rw [List.pairwise_append]
      refine ⟨h.ordered, List.pairwise_singleton _ _, ?_⟩
      rintro p hp q hq -
      obtain rfl := List.mem_singleton.mp hq
      exact early p (h.mem_read hp)
  · obtain ⟨above, below, rfl, goes, stays⟩ := List.map_eq_append_iff.mp
      (h.waits.trans (split ▸ List.map_append ..))
    let late : List Located := ([t].filter (· != .closing)).map (·, position)
    have texts : late.map Prod.fst = new.map Waiting.token := by
      rw [entered]
      cases t <;> rfl
    have here : lasting late = lasting [(t, position)] := by cases t <;> rfl
    refine ⟨written ++ lasting above, late ++ below, ?_, ?_, ?_, ?_⟩
    · rw [List.map_append, h.output, map_lasting goes]
    · rw [List.map_append, List.map_append, texts, stays]
    · have kept := h.kept
      rw [lasting_append] at kept
      rw [lasting_append, lasting_append, here, List.append_assoc]
      refine .trans ?_ (kept.append_right _)
      simpa using (List.perm_append_comm.append_left (lasting above)).append_left written
    · exact pairwise_follows h.ordered goes

theorem placeAll {ts : List Token} (h : Traced read s written waiting)
    (early : ∀ p ∈ read, p.2 < position)
    (placed : Yard.placeAll position s (elements ts) = .ok s') :
    ∃ written' waiting', Traced (read ++ ts.zipIdx position) s' written' waiting' := by
  induction ts generalizing read written waiting s position with
  | nil =>
    cases placed
    exact ⟨written, waiting, by simpa using h⟩
  | cons t ts ih =>
    obtain ⟨s₁, first, rest⟩ := bind_eq_ok.mp placed
    obtain ⟨written₁, waiting₁, next⟩ := h.place early first
    have later : ∀ p ∈ read ++ [(t, position)], p.2 < position + 1 := by
      intro p hp
      rcases List.mem_append.mp hp with old | new
      · exact Nat.lt_succ_of_lt (early p old)
      · rw [List.mem_singleton.mp new]
        exact Nat.lt_succ_self _
    rw [List.zipIdx_cons, List.append_cons]
    exact ih next later rest

end Traced

/-- The places of a sequence in the order in which its tokens are written. -/
structure Rearranges (ts out : List Token) (order : List Located) : Prop where
  texts : order.map Prod.fst = out
  kept : order.Perm (lasting ts.zipIdx)
  ordered : order.Pairwise Follows

theorem exists_rearranges {ts out : List Token} (h : postfixOrder (elements ts) = .ok out) :
    ∃ order, Rearranges ts out order := by
  obtain ⟨s, placed, finished⟩ := bind_eq_ok.mp h
  obtain ⟨top, waits, closed, rfl⟩ := Yard.ends_of_finish finished
  rw [List.append_nil] at waits
  have empty : Traced [] .start [] [] := ⟨rfl, rfl, .nil, .nil⟩
  obtain ⟨written, waiting, traced⟩ := empty.placeAll (by simp) placed
  refine ⟨written ++ lasting waiting, ?_, traced.kept, pairwise_follows traced.ordered traced.waits⟩
  rw [List.map_append, traced.output, map_lasting traced.waits, waits, Yard.filter_of_closed closed]

theorem map_filter_zipIdx (ts : List Token) (kept : Token → Bool) :
    (ts.zipIdx.filter fun p => kept p.1).map Prod.fst = ts.filter kept := by
  have same := List.filter_map (f := Prod.fst) (p := kept) (l := ts.zipIdx)
  rw [List.zipIdx_map_fst] at same
  exact same.symm

namespace Rearranges
variable {ts out : List Token} {order : List Located}

theorem perm (h : Rearranges ts out order) : out.Perm (ts.filter fun t => !t.isParenthesis) := by
  rw [← h.texts, ← map_filter_zipIdx]
  exact h.kept.map _

theorem mem_iff (h : Rearranges ts out order) {q : Located} (operand : q.1.isOperand = true) :
    q ∈ order ↔ q ∈ ts.zipIdx := by
  rw [h.kept.mem_iff, lasting, List.mem_filter, Token.isParenthesis_of_isOperand operand]
  simp

/-- Numbers and constants are written in the order in which they were read. -/
theorem operands (h : Rearranges ts out order) :
    out.filter Token.isOperand = ts.filter Token.isOperand := by
  let operand (p : Located) : Bool := p.1.isOperand
  have among : (lasting ts.zipIdx).filter operand = ts.zipIdx.filter operand := by
    rw [lasting, List.filter_filter]
    apply List.filter_congr
    rintro ⟨t, i⟩ -
    cases t <;> rfl
  have kept : (order.filter operand).Perm (ts.zipIdx.filter operand) :=
    among ▸ h.kept.filter operand
  have written : (order.filter operand).Pairwise fun p q => p.2 < q.2 :=
    (h.ordered.filter operand).imp_of_mem fun _ hq follows => follows (List.mem_filter.mp hq).2
  have read : ts.zipIdx.Pairwise fun p q => p.2 < q.2 := by
    rw [← List.pairwise_map (f := Prod.snd) (R := (· < ·)), List.zipIdx_map_snd]
    exact List.pairwise_lt_range' 1
  have same : order.filter operand = ts.zipIdx.filter operand :=
    kept.eq_of_pairwise (fun _ _ _ _ lt gt => absurd gt (Nat.lt_asymm lt)) written
      (read.filter operand)
  rw [← h.texts, List.filter_map, ← map_filter_zipIdx ts Token.isOperand]
  exact congrArg (List.map Prod.fst) same

/-- Whatever is written has in front of it all numbers and constants that were read before. -/
theorem mem_front (h : Rearranges ts out order) {a b : List Located} {p q : Located}
    (split : order = a ++ p :: b) (read : q ∈ ts.zipIdx) (operand : q.1.isOperand = true)
    (before : q.2 < p.2) : q ∈ a := by
  have written := (h.mem_iff operand).mpr read
  rw [split] at written
  rcases List.mem_append.mp written with front | back
  · exact front
  · rcases List.mem_cons.mp back with rfl | behind
    · exact absurd before (Nat.lt_irrefl _)
    · have ordered := h.ordered
      rw [split, List.pairwise_append] at ordered
      have later := (List.pairwise_cons.mp ordered.2.1).1 q behind operand
      exact absurd before (Nat.lt_asymm later)

end Rearranges

/-- **Ordering keeps every token but the parentheses.** Any sequence that is ordered at all, well
formed or not, is written with each of its other tokens once, numbers and constants in the order
in which they were read, and each token behind all numbers and constants that were read before. -/
theorem postfixOrder_keeps {ts out : List Token} (h : postfixOrder (elements ts) = .ok out) :
    (∀ t ∈ out, t.isParenthesis = false) ∧
    out.Perm (ts.filter fun t => !t.isParenthesis) ∧
    out.filter Token.isOperand = ts.filter Token.isOperand ∧
    ∃ order : List (Token × Nat), order.map Prod.fst = out ∧
      order.Perm (ts.zipIdx.filter fun p => !p.1.isParenthesis) ∧
      ∀ a p b, order = a ++ p :: b →
        ∀ q ∈ ts.zipIdx, q.1.isOperand = true → q.2 < p.2 → q ∈ a := by
  obtain ⟨order, rearranges⟩ := exists_rearranges h
  refine ⟨?_, rearranges.perm, rearranges.operands, order, rearranges.texts, rearranges.kept, ?_⟩
  · intro t ht
    simpa using (List.mem_filter.mp (rearranges.perm.subset ht)).2
  · intro a p b split q read operand before
    exact rearranges.mem_front split read operand before

/-- The ill-formed sequence `sin ( 3 * neg ) 4 - ( pi ^ ) 3`. -/
def jumbled : List Token :=
  let three : Token := .number ⟨"3", Eq.refl true⟩
  [.function .sin, .opening, three, .operator .multiply, .function .neg, .closing,
    .number ⟨"4", Eq.refl true⟩, .operator .subtract, .opening, .constant .pi, .operator .power,
    .closing, three]

/-- The second three is read behind the subtraction, and may be written in front of it. -/
theorem postfixOrder_jumbled :
    let three : Token := .number ⟨"3", Eq.refl true⟩
    let four : Token := .number ⟨"4", Eq.refl true⟩
    let out : List Token := [three, .function .neg, .operator .multiply, .function .sin, four,
      .constant .pi, .operator .power, three, .operator .subtract]
    postfixOrder (elements jumbled) = .ok out ∧
    out.filter Token.isOperand = [three, four, .constant .pi, three] ∧
    ∃ order : List (Token × Nat), order.map Prod.fst = out ∧
      order.Perm (jumbled.zipIdx.filter fun p => !p.1.isParenthesis) ∧
      ∀ a p b, order = a ++ p :: b →
        ∀ q ∈ jumbled.zipIdx, q.1.isOperand = true → q.2 < p.2 → q ∈ a := by
  intro three four out
  have order : postfixOrder (elements jumbled) = .ok out := rfl
  obtain ⟨-, -, -, places⟩ := postfixOrder_keeps order
  exact ⟨order, by decide, places⟩

end DeskCalculator.Expr
