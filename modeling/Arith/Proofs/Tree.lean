import Arith.Expr.Depth
import Arith.Proofs.Words

/-! Trees over the unbounded integers.

They are what a token sequence says before any limit is looked at, and what a tree
of words stands for. `Expr.tree` forgets that literals are words, `Tree.expr` takes
them modulo the words; on trees whose literals are words the two are inverse.
-/

set_option autoImplicit false

namespace Arith

inductive Tree where
  | literal (value : Int) (position : Nat)
  | operation (op : Operator) (left right : Tree) (position : Nat)
  deriving DecidableEq, Repr

def Expr.tree : Expr → Tree
  | .literal value position => .literal value.toInt position
  | .operation op left right position => .operation op left.tree right.tree position

theorem Expr.eq_literal_of_tree {expr : Expr} {value : Int} {position : Nat}
    (same : .literal value position = expr.tree) :
    ∃ word : Int64, expr = .literal word position ∧ word.toInt = value := by
  cases expr with
  | operation => cases same
  | literal word place =>
      obtain ⟨rfl, rfl⟩ := Tree.literal.inj same
      exact ⟨word, rfl, rfl⟩

theorem Expr.eq_operation_of_tree {expr : Expr} {op : Operator} {left right : Tree}
    {position : Nat} (same : .operation op left right position = expr.tree) :
    ∃ leftExpr rightExpr, expr = .operation op leftExpr rightExpr position ∧
      left = leftExpr.tree ∧ right = rightExpr.tree := by
  cases expr with
  | literal => cases same
  | operation other leftExpr rightExpr place =>
      obtain ⟨rfl, inLeft, inRight, rfl⟩ := Tree.operation.inj same
      exact ⟨leftExpr, rightExpr, rfl, inLeft, inRight⟩

namespace Tree

def expr : Tree → Expr
  | .literal value position => .literal (Int64.ofInt value) position
  | .operation op left right position => .operation op left.expr right.expr position

def position : Tree → Nat
  | .literal _ position => position
  | .operation _ _ _ position => position

def height : Tree → Nat
  | .literal _ _ => 1
  | .operation _ left right _ => 1 + max left.height right.height

/-- The tree itself and the trees of its nodes: left operand, right operand, node. -/
def subtrees : Tree → List Tree
  | .literal value position => [.literal value position]
  | .operation op left right position =>
    left.subtrees ++ right.subtrees ++ [.operation op left right position]

def Words : Tree → Prop
  | .literal value _ => Fits value
  | .operation _ left right _ => left.Words ∧ right.Words

theorem mem_subtrees_self (tree : Tree) : tree ∈ tree.subtrees := by
  cases tree <;> simp [subtrees]

theorem height_le_of_mem {tree node : Tree} (member : node ∈ tree.subtrees) :
    node.height ≤ tree.height := by
  induction tree with
  | literal value position =>
      exact Nat.le_of_eq (congrArg height (List.mem_singleton.mp member))
  | operation op left right position ihl ihr =>
      simp only [subtrees, List.mem_append, List.mem_singleton] at member
      rcases member with (inLeft | inRight) | rfl
      · have bound := ihl inLeft
        simp only [height]
        omega
      · have bound := ihr inRight
        simp only [height]
        omega
      · exact Nat.le_refl _

@[simp] theorem expr_tree (expr : Expr) : expr.tree.expr = expr := by
  induction expr with
  | literal value position => simp only [Expr.tree, Tree.expr, Int64.ofInt_toInt]
  | operation op left right position ihl ihr => simp only [Expr.tree, Tree.expr, ihl, ihr]

theorem tree_expr {tree : Tree} (words : tree.Words) : tree.expr.tree = tree := by
  induction tree with
  | literal value position => simp only [Tree.expr, Expr.tree, toInt_ofInt words]
  | operation op left right position ihl ihr =>
      simp only [Tree.expr, Expr.tree, ihl words.1, ihr words.2]

theorem fits_of_mem_subtrees {expr : Expr} {value : Int} {position : Nat}
    (member : .literal value position ∈ expr.tree.subtrees) : Fits value := by
  induction expr with
  | literal word place =>
      obtain ⟨rfl, -⟩ := Tree.literal.inj (List.mem_singleton.mp member)
      exact fits_toInt word
  | operation op left right place ihl ihr =>
      simp only [Expr.tree, subtrees, List.mem_append, List.mem_singleton, reduceCtorEq,
        or_false] at member
      rcases member with inLeft | inRight
      · exact ihl inLeft
      · exact ihr inRight

theorem height_tree (expr : Expr) : expr.tree.height = expr.height := by
  induction expr with
  | literal value position => rfl
  | operation op left right position ihl ihr =>
      simp only [Expr.tree, Tree.height, Expr.height, ihl, ihr]

end Tree

end Arith
