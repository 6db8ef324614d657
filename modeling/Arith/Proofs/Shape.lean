import Arith.Proofs.Evaluation
import Arith.Proofs.Positions

/-! Trees of one shape.

They have the same nodes in the same order and differ in the positions of these only. So
they have the same value, or the first node that fails stands at the same place in both.
-/

set_option autoImplicit false

namespace Arith

namespace Tree

def mapPositions (f : Nat → Nat) : Tree → Tree
  | .literal value position => .literal value (f position)
  | .operation op left right position =>
    .operation op (left.mapPositions f) (right.mapPositions f) (f position)

/-- The node with the given index, in the order left operand, right operand, node, is the
first to fail. -/
structure FailsAt (tree : Tree) (index : Nat) (cause : EvalError) : Prop where
  fails : ∃ node, tree.subtrees[index]? = some node ∧ node.FailsWith cause
  first : ∀ before ∈ tree.subtrees.take index, ∀ other, ¬ before.FailsWith other

theorem firstFailure_iff {tree : Tree} {cause : EvalError} :
    tree.FirstFailure cause ↔ ∃ index, tree.FailsAt index cause := by
  constructor
  · rintro ⟨earlier, node, later, split, fails, regular⟩
    refine ⟨earlier.length, ⟨node, ?_, fails⟩, ?_⟩
    · rw [split, List.getElem?_append_right (Nat.le_refl _), Nat.sub_self, List.getElem?_cons_zero]
    · rwa [split, List.take_left]
  · rintro ⟨index, ⟨node, found, fails⟩, regular⟩
    obtain ⟨inside, here⟩ := List.getElem?_eq_some_iff.mp found
    refine ⟨tree.subtrees.take index, node, tree.subtrees.drop (index + 1), ?_, fails, regular⟩
    rw [← here, ← List.drop_eq_getElem_cons inside, List.take_append_drop]

variable (f : Nat → Nat)

theorem subtrees_mapPositions (tree : Tree) :
    (tree.mapPositions f).subtrees = tree.subtrees.map (mapPositions f) := by
  induction tree with
  | literal value position => rfl
  | operation op left right position ihl ihr =>
      simp only [mapPositions, subtrees, ihl, ihr, List.map_append, List.map_cons, List.map_nil]

theorem value?_mapPositions (tree : Tree) : (tree.mapPositions f).value? = tree.value? := by
  induction tree with
  | literal value position => rfl
  | operation op left right position ihl ihr => simp only [mapPositions, value?, ihl, ihr]

theorem evaluates_mapPositions (tree : Tree) (value : Int) :
    (tree.mapPositions f).Evaluates value ↔ tree.Evaluates value := by
  simp only [Evaluates, subtrees_mapPositions, value?_mapPositions, List.forall_mem_map]

variable {f}

theorem FailsWith.mapPositions {node : Tree} {cause : EvalError} (fails : node.FailsWith cause) :
    (node.mapPositions f).FailsWith (cause.mapPosition f) := by
  cases fails with
  | zero left right =>
      exact .zero ((evaluates_mapPositions f _ _).mpr left)
        ((evaluates_mapPositions f _ _).mpr right)
  | overflow left right result unfit =>
      exact .overflow ((evaluates_mapPositions f _ _).mpr left)
        ((evaluates_mapPositions f _ _).mpr right) result unfit

theorem FailsWith.of_mapPositions {node : Tree} {moved : EvalError}
    (fails : (node.mapPositions f).FailsWith moved) :
    ∃ cause, node.FailsWith cause ∧ cause.mapPosition f = moved := by
  cases node with
  | literal value position => cases fails
  | operation op left right position =>
      cases fails with
      | zero inLeft inRight =>
          exact ⟨_, .zero ((evaluates_mapPositions f _ _).mp inLeft)
            ((evaluates_mapPositions f _ _).mp inRight), rfl⟩
      | overflow inLeft inRight result unfit =>
          exact ⟨_, .overflow ((evaluates_mapPositions f _ _).mp inLeft)
            ((evaluates_mapPositions f _ _).mp inRight) result unfit, rfl⟩

theorem FailsAt.mapPositions {tree : Tree} {index : Nat} {cause : EvalError}
    (failsAt : tree.FailsAt index cause) :
    (tree.mapPositions f).FailsAt index (cause.mapPosition f) := by
  obtain ⟨node, found, fails⟩ := failsAt.fails
  refine ⟨⟨node.mapPositions f, ?_, fails.mapPositions⟩, ?_⟩
  · rw [subtrees_mapPositions, List.getElem?_map, found, Option.map_some]
  · rw [subtrees_mapPositions, ← List.map_take, List.forall_mem_map]
    intro before member moved failsBefore
    obtain ⟨other, failed, -⟩ := failsBefore.of_mapPositions
    exact failsAt.first before member other failed

theorem FailsAt.of_mapPositions {tree : Tree} {index : Nat} {moved : EvalError}
    (failsAt : (tree.mapPositions f).FailsAt index moved) :
    ∃ cause, tree.FailsAt index cause ∧ cause.mapPosition f = moved := by
  obtain ⟨⟨node, found, fails⟩, first⟩ := failsAt
  rw [subtrees_mapPositions, List.getElem?_map] at found
  obtain ⟨original, foundOriginal, rfl⟩ := Option.map_eq_some_iff.mp found
  obtain ⟨cause, failsOriginal, same⟩ := fails.of_mapPositions
  refine ⟨cause, ⟨⟨original, foundOriginal, failsOriginal⟩, ?_⟩, same⟩
  intro before member other failsBefore
  rw [subtrees_mapPositions, ← List.map_take, List.forall_mem_map] at first
  exact first before member _ failsBefore.mapPositions

end Tree

namespace Expr

theorem tree_mapPositions (f : Nat → Nat) (expr : Expr) :
    (expr.mapPositions f).tree = expr.tree.mapPositions f := by
  induction expr with
  | literal value position => rfl
  | operation op left right position ihl ihr =>
      simp only [mapPositions, tree, Tree.mapPositions, ihl, ihr]

theorem evaluate_eq_error_iff_failsAt (expr : Expr) (cause : EvalError) :
    expr.evaluate = .error cause ↔ ∃ index, expr.tree.FailsAt index cause :=
  (expr.evaluate_eq_error_iff cause).trans Tree.firstFailure_iff

theorem SameShape.failsAt {first second : Expr} (same : first.SameShape second) {index : Nat}
    {cause : EvalError} (failsAt : first.tree.FailsAt index cause) :
    ∃ other, second.tree.FailsAt index other ∧
      other.mapPosition (fun _ => 0) = cause.mapPosition fun _ => 0 := by
  -- trees of one shape are equal without their positions
  have erased := failsAt.mapPositions (f := fun _ => 0)
  rw [← tree_mapPositions, same, tree_mapPositions] at erased
  exact erased.of_mapPositions

/-- Trees of one shape have one value, or fail at the same node for the same reason. -/
theorem SameShape.evaluate_cases {first second : Expr} (same : first.SameShape second) :
    (∃ value, first.evaluate = .ok value ∧ second.evaluate = .ok value) ∨
    ∃ index cause other, first.evaluate = .error cause ∧ second.evaluate = .error other ∧
      first.tree.FailsAt index cause ∧ second.tree.FailsAt index other ∧
      other.mapPosition (fun _ => 0) = cause.mapPosition fun _ => 0 := by
  cases result : first.evaluate with
  | ok value =>
      have evaluated := same.evaluate_eq
      rw [result] at evaluated
      cases other : second.evaluate with
      | ok _ =>
          rw [other] at evaluated
          cases evaluated
          exact .inl ⟨value, rfl, rfl⟩
      | error _ =>
          rw [other] at evaluated
          cases evaluated
  | error cause =>
      obtain ⟨index, failsAt⟩ := (first.evaluate_eq_error_iff_failsAt cause).mp result
      obtain ⟨other, otherFailsAt, kind⟩ := same.failsAt failsAt
      have otherResult := (second.evaluate_eq_error_iff_failsAt other).mpr ⟨index, otherFailsAt⟩
      exact .inr ⟨index, cause, other, rfl, otherResult, failsAt, otherFailsAt, kind⟩

end Expr

end Arith
