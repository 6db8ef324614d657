import Arith.Expr.Depth
import Arith.Lexing
import Arith.Proofs.Parser.Cursor
import Mathlib.Data.List.Nodup

/-! The depth of a tree, as the rules keep it and as the loop over pending subtrees finds it.

A node is told by the path that leads to it from the root, so that equal subtrees at
different places count apart. The loop comes to every place once, whatever the tree, and
the depth that a rule keeps beside its tree is what the loop would find.
-/

set_option autoImplicit false

namespace Arith

inductive Side where
  | left
  | right
  deriving DecidableEq, Repr

def Expr.at? : Expr → List Side → Option Expr
  | expr, [] => some expr
  | .operation _ left _ _, .left :: path => left.at? path
  | .operation _ _ right _, .right :: path => right.at? path
  | .literal _ _, _ :: _ => none

structure Place where
  path : List Side
  expr : Expr
  deriving DecidableEq, Repr

namespace Place

def root (expr : Expr) : Place :=
  ⟨[], expr⟩

def level (place : Place) : Nat :=
  place.path.length + 1

def entry (place : Place) : Expr × Nat :=
  (place.expr, place.level)

/-- The places that take the stead of one that is visited; the right operand is next. -/
def operands (place : Place) : List Place :=
  match place.expr with
  | .literal _ _ => []
  | .operation _ left right _ =>
    [⟨place.path ++ [.right], right⟩, ⟨place.path ++ [.left], left⟩]

/-- The place as seen from further up, where `base` leads to the root of its tree. -/
def behind (base : List Side) (place : Place) : Place :=
  ⟨base ++ place.path, place.expr⟩

end Place

/-- The rounds of the loop from its state to its end. Each visits the place in front. -/
inductive Sweeps : (visited : List Place) → (deepest : Nat) → (pending : List Place) →
    (result : Nat) → Prop where
  | done {deepest : Nat} : Sweeps [] deepest [] deepest
  | visit {place : Place} {visited rest : List Place} {deepest result : Nat}
      (goesOn : Sweeps visited (max deepest place.level) (place.operands ++ rest) result) :
      Sweeps (place :: visited) deepest (place :: rest) result

/-- A round puts the operands of a node in its stead. -/
theorem deepestLevel_visit (deepest : Nat) (place : Place) (rest : List Place) :
    Expr.deepestLevel deepest ((place :: rest).map Place.entry) =
      Expr.deepestLevel (max deepest place.level) ((place.operands ++ rest).map Place.entry) := by
  obtain ⟨path, expr⟩ := place
  cases expr with
  | literal value position =>
      simp only [List.map_cons, Place.entry, Place.operands, List.nil_append]
      rw [Expr.deepestLevel]
  | operation op left right position =>
      simp only [List.map_cons, Place.entry, Place.operands, Place.level, List.cons_append,
        List.nil_append, List.length_append, List.length_singleton]
      rw [Expr.deepestLevel]

theorem Sweeps.deepestLevel_eq {visited pending : List Place} {deepest result : Nat}
    (sweeps : Sweeps visited deepest pending result) :
    Expr.deepestLevel deepest (pending.map Place.entry) = result := by
  induction sweeps with
  | done => rw [List.map_nil, Expr.deepestLevel]
  | visit goesOn ih => rw [deepestLevel_visit, ih]

namespace Place

theorem behind_root (base : List Side) (expr : Expr) : (root expr).behind base = ⟨base, expr⟩ := by
  simp only [root, behind, List.append_nil]

theorem mem_map_behind {side : Side} {places : List Place} {path : List Side} {sub : Expr} :
    ⟨path, sub⟩ ∈ places.map (behind [side]) ↔
      ∃ further, path = side :: further ∧ ⟨further, sub⟩ ∈ places := by
  simp only [List.mem_map, behind, Place.mk.injEq, List.singleton_append]
  constructor
  · rintro ⟨⟨further, _⟩, member, rfl, rfl⟩
    exact ⟨further, rfl, member⟩
  · rintro ⟨further, rfl, member⟩
    exact ⟨⟨further, sub⟩, member, rfl, rfl⟩

theorem map_path_behind (side : Side) (places : List Place) :
    (places.map (behind [side])).map path = (places.map path).map (side :: ·) := by
  rw [List.map_map, List.map_map]
  rfl

theorem map_behind_behind (base : List Side) (side : Side) (places : List Place) :
    (places.map (behind [side])).map (behind base) = places.map (behind (base ++ [side])) := by
  rw [List.map_map]
  apply List.map_congr_left
  intro place member
  simp only [Function.comp_apply, behind, List.append_assoc]

end Place

namespace Expr

/-- The nodes of a tree in the order in which they are visited. -/
def places : Expr → List Place
  | .literal value position => [.root (.literal value position)]
  | .operation op left right position =>
    .root (.operation op left right position) ::
      (right.places.map (Place.behind [.right]) ++ left.places.map (Place.behind [.left]))

theorem length_places (expr : Expr) : expr.places.length = expr.size := by
  induction expr with
  | literal value position => rfl
  | operation op left right position ihl ihr =>
      simp only [places, size, List.length_cons, List.length_append, List.length_map, ihl, ihr]
      omega

theorem mem_places_iff (expr : Expr) (path : List Side) (sub : Expr) :
    ⟨path, sub⟩ ∈ expr.places ↔ expr.at? path = some sub := by
  induction expr generalizing path with
  | literal value position =>
      cases path with
      | nil => simp [places, Place.root, at?, eq_comm]
      | cons side path => simp [places, Place.root, at?]
  | operation op left right position ihl ihr =>
      simp only [places, List.mem_cons, List.mem_append, Place.mem_map_behind, Place.root,
        Place.mk.injEq, ihl, ihr]
      cases path with
      | nil => simp [at?, eq_comm]
      | cons side path => cases side <;> simp [at?]

theorem nodup_places (expr : Expr) : (expr.places.map Place.path).Nodup := by
  induction expr with
  | literal value position => exact List.pairwise_singleton _ _
  | operation op left right position ihl ihr =>
      have inRight : (right.places.map Place.path |>.map (Side.right :: ·)).Nodup :=
        ihr.map List.cons_injective
      have inLeft : (left.places.map Place.path |>.map (Side.left :: ·)).Nodup :=
        ihl.map List.cons_injective
      rw [places, List.map_cons, List.map_append, Place.map_path_behind, Place.map_path_behind,
        List.nodup_cons, List.nodup_append]
      refine ⟨?_, inRight, inLeft, ?_⟩
      · -- the path of the root has no steps, all others have one
        simp [Place.root]
      · -- the operands part at the first step
        simp

theorem height_at?_le {expr sub : Expr} {path : List Side}
    (found : expr.at? path = some sub) : sub.height ≤ expr.height := by
  induction expr generalizing path with
  | literal value position =>
      cases path with
      | nil =>
          cases found
          exact Nat.le_refl _
      | cons side path => simp [at?] at found
  | operation op left right position ihl ihr =>
      cases path with
      | nil =>
          cases found
          exact Nat.le_refl _
      | cons side path =>
          simp only [height]
          cases side with
          | left =>
              have le := ihl found
              omega
          | right =>
              have le := ihr found
              omega

end Expr

/-- Visiting a subtree comes to all of its places before it goes on with the others. -/
theorem Sweeps.subtree (expr : Expr) {base : List Side} {visited rest : List Place}
    {deepest result : Nat}
    (goesOn : Sweeps visited (max deepest (base.length + expr.height)) rest result) :
    Sweeps (expr.places.map (Place.behind base) ++ visited) deepest (⟨base, expr⟩ :: rest)
      result := by
  induction expr generalizing base visited rest deepest with
  | literal value position =>
      rw [Expr.places, List.map_singleton, Place.behind_root]
      exact .visit goesOn
  | operation op left right position ihl ihr =>
      have longer (side : Side) : (base ++ [side]).length = base.length + 1 := by
        rw [List.length_append, List.length_singleton]
      have levels : max (max (max deepest (base.length + 1)) (base.length + 1 + right.height))
          (base.length + 1 + left.height) =
            max deepest (base.length + (Expr.operation op left right position).height) := by
        have pos := right.height_pos
        simp only [Expr.height]
        omega
      -- from the end backwards: the left operand is the last to be visited
      rw [← levels, ← longer .left] at goesOn
      have inLeft := ihl goesOn
      rw [longer .left, ← longer .right] at inLeft
      have inBoth := ihr inLeft
      rw [longer .right] at inBoth
      rw [Expr.places, List.map_cons, Place.behind_root, List.map_append, Place.map_behind_behind,
        Place.map_behind_behind, List.cons_append, List.append_assoc]
      exact .visit inBoth

theorem sweeps_places (expr : Expr) : Sweeps expr.places 0 [.root expr] expr.height := by
  have sweeps : Sweeps (expr.places.map (Place.behind []) ++ []) 0 [.root expr] expr.height :=
    .subtree expr (by
      rw [List.length_nil, Nat.zero_add, Nat.zero_max]
      exact .done)
  have same : expr.places.map (Place.behind []) = expr.places := List.map_id _
  rwa [same, List.append_nil] at sweeps

namespace Parser

def Outcome.Ensures (holds : Parsed → Prop) (outcome : Outcome) : Prop :=
  ∀ parsed, outcome.result = .ok parsed → holds parsed

structure Parsed.TracksDepth (parsed : Parsed) : Prop where
  depth_eq : parsed.depth = parsed.expr.depth
  pos : 1 ≤ parsed.depth
  bound : parsed.depth ≤ maxTreeDepth
  subtrees : ∀ path sub, parsed.expr.at? path = some sub →
    1 ≤ sub.depth ∧ sub.depth ≤ maxTreeDepth

theorem Consumes.tracksDepth {category : Category} {state : State} {outcome : Outcome}
    (consumes : Consumes category state outcome) : outcome.Ensures Parsed.TracksDepth := by
  intro parsed answered
  obtain ⟨result, after⟩ := outcome
  cases answered
  obtain ⟨phrase, -, reads, shallow, -⟩ := consumes
  have depth : parsed.depth = parsed.expr.depth := by rw [reads.height, Expr.depth_eq_height]
  refine ⟨depth, ?_, shallow, ?_⟩
  · rw [reads.height]
    exact parsed.expr.height_pos
  · intro path sub found
    have le := Expr.height_at?_le found
    rw [reads.height] at shallow
    rw [Expr.depth_eq_height]
    exact ⟨sub.height_pos, Nat.le_trans le shallow⟩

end Parser

/-- The depth that a rule keeps beside its tree is the depth of the tree, and the loop that
finds the depth of any tree visits each of its places once and ends with its height. -/
theorem depth_exact :
    (∀ (nesting : Nat) (state : Parser.State),
      (Parser.expression nesting state).Ensures Parser.Parsed.TracksDepth ∧
      (Parser.term nesting state).Ensures Parser.Parsed.TracksDepth) ∧
    (∀ (visited pending : List Place) (deepest result : Nat),
      Sweeps visited deepest pending result →
        Expr.deepestLevel deepest (pending.map Place.entry) = result) ∧
    ∀ expr : Expr, ∃ visited,
      Sweeps visited 0 [.root expr] expr.depth ∧
      visited.length = expr.size ∧ (visited.map Place.path).Nodup ∧
      (∀ path sub, ⟨path, sub⟩ ∈ visited ↔ expr.at? path = some sub) ∧
      expr.depth = expr.height := by
  refine ⟨?_, fun _ _ _ _ => Sweeps.deepestLevel_eq, ?_⟩
  · intro nesting state
    have expressions := Parser.rule_consumes .expression (maxNesting - nesting) state
    have terms := Parser.rule_consumes .term (maxNesting - nesting) state
    exact ⟨expressions.tracksDepth, terms.tracksDepth⟩
  · intro expr
    have sweeps := sweeps_places expr
    rw [← expr.depth_eq_height] at sweeps
    exact ⟨expr.places, sweeps, expr.length_places, expr.nodup_places, expr.mem_places_iff,
      expr.depth_eq_height⟩

theorem depth_product_of_sum :
    ∃ parsed visited, (Parser.expression 0 (.start 0 (lex "2*(7+1)"))).result = .ok parsed ∧
      parsed.TracksDepth ∧ Sweeps visited 0 [.root parsed.expr] 3 ∧
      Expr.deepestLevel 0 [(parsed.expr, 1)] = 3 ∧ visited.length = 5 := by
  let product : Expr := .operation .mul (.literal 2 0)
    (.operation .add (.literal 7 3) (.literal 1 5) 4) 1
  have answered : (Parser.expression 0 (.start 0 (lex "2*(7+1)"))).result = .ok ⟨product, 3⟩ := by
    decide +kernel
  obtain ⟨rules, loop, visits⟩ := depth_exact
  have tracks := (rules 0 _).1 _ answered
  obtain ⟨visited, sweeps, length, -⟩ := visits product
  have depth : product.depth = 3 := tracks.depth_eq.symm
  rw [depth] at sweeps
  exact ⟨_, visited, answered, tracks, sweeps, loop _ _ _ _ sweeps, length⟩

end Arith
