import Arith.Expr

/-! The depth of a tree, found with a list of nodes still to visit.

Hand-built trees may be of any depth, so the loop keeps its own list rather than
recurring. `depth_eq_height` is the structural reading.
-/

set_option autoImplicit false

namespace Arith.Expr

def height : Expr → Nat
  | .literal _ _ => 1
  | .operation _ left right _ => 1 + max left.height right.height

def pendingSize : List (Expr × Nat) → Nat
  | [] => 0
  | (expr, _) :: rest => expr.size + pendingSize rest

/-- Visits pending subtrees, each with the level of its root, and keeps the deepest level. -/
def deepestLevel (deepest : Nat) : List (Expr × Nat) → Nat
  | [] => deepest
  | (.literal _ _, level) :: rest => deepestLevel (max deepest level) rest
  | (.operation _ left right _, level) :: rest =>
    deepestLevel (max deepest level) ((right, level + 1) :: (left, level + 1) :: rest)
termination_by pending => pendingSize pending
decreasing_by all_goals simp only [pendingSize, size]; omega

def depth (expr : Expr) : Nat :=
  deepestLevel 0 [(expr, 1)]

theorem height_pos (expr : Expr) : 0 < expr.height := by
  cases expr <;> simp only [height] <;> omega

theorem deepestLevel_eq (deepest : Nat) (pending : List (Expr × Nat)) :
    deepestLevel deepest pending =
      pending.foldl (fun deepest subtree => max deepest (subtree.2 + subtree.1.height - 1)) deepest := by
  fun_induction deepestLevel deepest pending with
  | case1 => rfl
  | case2 deepest value position level rest ih =>
      rw [ih, List.foldl_cons]
      simp only [height, Nat.add_sub_cancel]
  | case3 deepest op left right position level rest ih =>
      have leftPos := left.height_pos
      have rightPos := right.height_pos
      rw [ih, List.foldl_cons, List.foldl_cons, List.foldl_cons]
      congr 1
      simp only [height]
      omega

theorem depth_eq_height (expr : Expr) : expr.depth = expr.height := by
  rw [depth, deepestLevel_eq]
  simp only [List.foldl_cons, List.foldl_nil]
  have pos := expr.height_pos
  omega

end Arith.Expr
