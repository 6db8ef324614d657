import Arith.Operator

/-! Expression trees.

A node carries the position of the token it stands for: an operation that of its
operator, a literal that of its first digit. Parentheses leave no node.
-/

set_option autoImplicit false

namespace Arith

inductive Expr where
  | literal (value : Int64) (position : Nat)
  | operation (op : Operator) (left right : Expr) (position : Nat)
  deriving DecidableEq, Repr

namespace Expr

def position : Expr → Nat
  | .literal _ position => position
  | .operation _ _ _ position => position

def size : Expr → Nat
  | .literal _ _ => 1
  | .operation _ left right _ => left.size + right.size + 1

def prefixForm : Expr → String
  | .literal value _ => toString value.toInt
  | .operation op left right _ =>
    "(" ++ op.symbol.toString ++ " " ++ left.prefixForm ++ " " ++ right.prefixForm ++ ")"

end Expr

end Arith
