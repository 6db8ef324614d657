import Arith.Expr

/-! Trees as the list of their nodes: left operand, right operand, node. -/

set_option autoImplicit false

namespace Arith

inductive Node where
  | literal (value : Int64) (position : Nat)
  | operation (op : Operator) (position : Nat)
  deriving DecidableEq, Repr

namespace Expr

def postorderOnto (rest : List Node) : Expr → List Node
  | .literal value position => .literal value position :: rest
  | .operation op left right position =>
    left.postorderOnto (right.postorderOnto (.operation op position :: rest))

def postorder (expr : Expr) : List Node :=
  expr.postorderOnto []

theorem postorderOnto_eq (expr : Expr) (rest : List Node) :
    expr.postorderOnto rest = expr.postorder ++ rest := by
  induction expr generalizing rest with
  | literal value position => rfl
  | operation op left right position ihl ihr =>
      simp only [postorder, postorderOnto]
      rw [ihl, ihr, ihl (right.postorderOnto _), ihr [_]]
      simp only [List.append_assoc, List.singleton_append]

theorem postorder_operation (op : Operator) (left right : Expr) (position : Nat) :
    (operation op left right position).postorder =
      left.postorder ++ right.postorder ++ [.operation op position] := by
  rw [postorder, postorderOnto, postorderOnto_eq, postorderOnto_eq, List.append_assoc]

end Expr

end Arith
