import DeskCalculator.Proofs.Precedence

/-!
# The right edge of a parse tree

What is written last in an expression is lowest on the right edge of its tree. An expression is
filled, frame by frame, around its last part (`Frame`), and its tree is what is on the way down
its right edge around the tree of that part (`Edge`), whatever the part is: `tree_fill`.
-/

namespace DeskCalculator.Expr

/-- A step down the right edge of a tree, with what it leaves behind. -/
inductive Turn where
  | apply (f : Function)
  | join (o : Operator) (left : Tree)

def Turn.plug : Turn → Tree → Tree
  | apply f, t => .apply f t
  | join o l, t => .join o l t

/-- Steps down the right edge of a tree, from its root on. -/
abbrev Edge := List Turn

namespace Edge

/-- The tree with the given one at the end of its right edge. -/
def plug (e : Edge) (t : Tree) : Tree := e.foldr Turn.plug t

theorem plug_append (a b : Edge) (t : Tree) : plug (a ++ b) t = plug a (plug b t) := by
  simp [plug, List.foldr_append]

end Edge

namespace Pending

/-- Operators that wait are on the way to the operand they wait for, the latest last. -/
def edge (p : Pending) : Edge := p.reverse.map fun c => .join c.1 c.2

theorem collapse_eq_plug (p : Pending) (x : Tree) : p.collapse x = p.edge.plug x := by
  induction p generalizing x with
  | nil => rfl
  | cons c p ih =>
    rw [collapse, ih, edge, edge, List.reverse_cons, List.map_append, Edge.plug_append]
    rfl

/-- The way to the last operand of a chain, past those in front of it. -/
def edgeAfter : Pending → List (Tree × Operator) → Edge
  | p, [] => p.edge
  | p, (x, o) :: front => edgeAfter ((o, (p.absorb o x).2) :: (p.absorb o x).1) front

end Pending

namespace Chain

/-- A chain that ends with the given operand. -/
def ending : List (Tree × Operator) → Tree → Chain
  | [], y => (y, [])
  | (x, o) :: front, y => (x, (o, (ending front y).1) :: (ending front y).2)

theorem climb_ending (p : Pending) (front : List (Tree × Operator)) (y : Tree) :
    p.climb (ending front y).1 (ending front y).2 = (p.edgeAfter front).plug y := by
  induction front generalizing p with
  | nil => exact p.collapse_eq_plug y
  | cons c front ih => exact ih _

/-- What is in front of the last operand of a chain says where that is in the tree. -/
theorem tree_ending (front : List (Tree × Operator)) (y : Tree) :
    (ending front y).tree = (Pending.edgeAfter [] front).plug y := by
  rw [← climb_eq_tree, climb_ending]

end Chain

/-- What is directly around the last part of an expression. -/
inductive Frame where
  | more (x : Operand) (o : Operator)
  | bare (f : Function)
  | group
  | call (f : Function)

namespace Frame

/-- The tokens in front. -/
def tokens : Frame → List Token
  | more x o => x.tokens ++ [.operator o]
  | bare f => [.function f]
  | group => [.opening]
  | call f => [.function f, .opening]

/-- Parentheses that are to be closed behind. -/
def opens : Frame → Nat
  | more _ _ | bare _ => 0
  | group | call _ => 1

def fill : Frame → Group → Group
  | more x o, g => .more x o g
  | bare f, g => .bare f g
  | group, g => .last (.group g)
  | call f, g => .last (.call f g)

end Frame

/-- What is around the last part of an expression, from the outside in. -/
abbrev Surroundings := List Frame

namespace Surroundings

def tokens (frames : Surroundings) : List Token := frames.flatMap Frame.tokens

def opens : Surroundings → Nat
  | [] => 0
  | frame :: rest => frame.opens + opens rest

def fill (frames : Surroundings) (g : Group) : Group := frames.foldr Frame.fill g

/-- Operands in front of the last one in the outermost group. -/
def front : Surroundings → List (Tree × Operator)
  | .more x o :: rest => (x.tree, o) :: front rest
  | _ => []

/-- The way from the last operand of the outermost group to the last part. -/
def within : Surroundings → Edge
  | [] => []
  | .more _ _ :: rest => within rest
  | .group :: rest => Pending.edgeAfter [] (front rest) ++ within rest
  | .bare f :: rest | .call f :: rest =>
    .apply f :: (Pending.edgeAfter [] (front rest) ++ within rest)

/-- The way to the last part. -/
def edge (frames : Surroundings) : Edge := Pending.edgeAfter [] frames.front ++ frames.within

theorem fill_cons (frame : Frame) (frames : Surroundings) (g : Group) :
    fill (frame :: frames) g = frame.fill (fill frames g) := rfl

@[simp]
theorem tokens_cons (frame : Frame) (frames : Surroundings) :
    tokens (frame :: frames) = frame.tokens ++ tokens frames := rfl

@[simp]
theorem opens_cons (frame : Frame) (frames : Surroundings) :
    opens (frame :: frames) = frame.opens + opens frames := rfl

theorem tokens_fill (frames : Surroundings) (g : Group) :
    (frames.fill g).tokens =
      frames.tokens ++ g.tokens ++ List.replicate frames.opens .closing := by
  induction frames with
  | nil => simp [fill, tokens, opens]
  | cons frame frames ih =>
    rw [fill_cons, tokens_cons, opens_cons]
    cases frame with
    | more x o => simp [Frame.fill, Frame.tokens, Frame.opens, Group.tokens, ih]
    | bare f => simp [Frame.fill, Frame.tokens, Frame.opens, Group.tokens, ih]
    | group =>
      simp [Frame.fill, Frame.tokens, Frame.opens, Group.tokens, Operand.tokens, ih,
        Nat.add_comm 1, List.replicate_succ']
    | call f =>
      simp [Frame.fill, Frame.tokens, Frame.opens, Group.tokens, Operand.tokens, ih,
        Nat.add_comm 1, List.replicate_succ']

theorem chain_fill (frames : Surroundings) {g : Group} {t : Tree} (single : g.chain = (t, [])) :
    (frames.fill g).chain = Chain.ending frames.front (frames.within.plug t) := by
  induction frames with
  | nil => exact single
  | cons frame frames ih =>
    have whole : Chain.tree (fill frames g).chain =
        Edge.plug (Pending.edgeAfter [] (front frames) ++ within frames) t := by
      rw [ih, Chain.tree_ending, Edge.plug_append]
    cases frame with
    | more x o =>
      rw [fill_cons, Frame.fill, Group.chain, ih]
      rfl
    | bare f =>
      rw [fill_cons, Frame.fill, Group.chain, whole]
      rfl
    | group =>
      rw [fill_cons, Frame.fill, Group.chain, Operand.tree, whole]
      rfl
    | call f =>
      rw [fill_cons, Frame.fill, Group.chain, Operand.tree, whole]
      rfl

/-- **The last part stands where what is around it says,** whatever it is. -/
theorem tree_fill (frames : Surroundings) {g : Group} {t : Tree} (single : g.chain = (t, [])) :
    (frames.fill g).tree = frames.edge.plug t := by
  rw [Group.tree, frames.chain_fill single, Chain.tree_ending, edge, Edge.plug_append]

theorem proper_of_fill {frames : Surroundings} {g : Group} (h : (frames.fill g).proper = true) :
    g.proper = true := by
  induction frames with
  | nil => exact h
  | cons frame frames ih =>
    rw [fill_cons] at h
    cases frame with
    | more x o => exact ih (Bool.and_eq_true_iff.mp h).2
    | bare f => exact ih (Bool.and_eq_true_iff.mp h).1
    | group => exact ih h
    | call f => exact ih h

/-- Another last part may take the place of one, if it opens with no parenthesis where that does
not. -/
theorem proper_fill (frames : Surroundings) {g h : Group} (proper : (frames.fill g).proper = true)
    (replaced : h.proper = true) (opens : h.opens = true → g.opens = true) :
    (frames.fill h).proper = true ∧
      ((frames.fill h).opens = true → (frames.fill g).opens = true) := by
  induction frames with
  | nil => exact ⟨replaced, opens⟩
  | cons frame frames ih =>
    rw [fill_cons] at proper
    rw [fill_cons, fill_cons]
    cases frame with
    | more x o =>
      obtain ⟨first, rest⟩ := Bool.and_eq_true_iff.mp proper
      refine ⟨?_, id⟩
      simp [Frame.fill, Group.proper, first, ih rest]
    | bare f =>
      obtain ⟨argument, plain⟩ := Bool.and_eq_true_iff.mp proper
      obtain ⟨kept, still⟩ := ih argument
      refine ⟨?_, id⟩
      cases opened : (fill frames h).opens with
      | false => simp [Frame.fill, Group.proper, kept, opened]
      | true => simp [still opened] at plain
    | group => exact ⟨(ih proper).1, id⟩
    | call f => exact ⟨(ih proper).1, id⟩

end Surroundings
end DeskCalculator.Expr
