import Arith.Expr.Depth
import Arith.Parse

/-! Trees apart from the positions of their nodes.

Positions serve the reports only: neither the depth nor the value of a tree depends on
them, and an error of evaluation names the position of its node.
-/

set_option autoImplicit false

namespace Arith

namespace EvalError

def mapPosition (f : Nat → Nat) : EvalError → EvalError
  | .divisionByZero position => .divisionByZero (f position)
  | .overflow op position => .overflow op (f position)

end EvalError

theorem Operator.apply_mapPosition (f : Nat → Nat) (op : Operator) (left right : Int64)
    (position : Nat) :
    op.apply left right (f position) =
      (op.apply left right position).mapError (EvalError.mapPosition f) := by
  unfold apply
  split
  · rfl
  · cases op.checked left right with
    | none => rfl
    | some value => rfl

namespace Expr

def mapPositions (f : Nat → Nat) : Expr → Expr
  | .literal value position => .literal value (f position)
  | .operation op left right position =>
    .operation op (left.mapPositions f) (right.mapPositions f) (f position)

def SameShape (first second : Expr) : Prop :=
  first.mapPositions (fun _ => 0) = second.mapPositions (fun _ => 0)

theorem height_mapPositions (f : Nat → Nat) (expr : Expr) :
    (expr.mapPositions f).height = expr.height := by
  induction expr with
  | literal value position => rfl
  | operation op left right position ihl ihr => simp only [mapPositions, height, ihl, ihr]

theorem evaluate_mapPositions (f : Nat → Nat) (expr : Expr) :
    (expr.mapPositions f).evaluate = expr.evaluate.mapError (EvalError.mapPosition f) := by
  induction expr with
  | literal value position => rfl
  | operation op left right position ihl ihr =>
      simp only [mapPositions, evaluate, ihl, ihr]
      cases left.evaluate with
      | error cause => rfl
      | ok leftValue =>
          cases right.evaluate with
          | error cause => rfl
          | ok rightValue => exact op.apply_mapPosition f leftValue rightValue position

namespace SameShape

variable {first second : Expr}

theorem literal (value : Int64) (position other : Nat) :
    SameShape (.literal value position) (.literal value other) :=
  rfl

theorem operation {left right otherLeft otherRight : Expr} (sameLeft : left.SameShape otherLeft)
    (sameRight : right.SameShape otherRight) (op : Operator) (position other : Nat) :
    SameShape (.operation op left right position) (.operation op otherLeft otherRight other) := by
  unfold SameShape mapPositions
  rw [sameLeft, sameRight]

theorem height_eq (same : first.SameShape second) : first.height = second.height := by
  rw [← height_mapPositions (fun _ => 0) first, same, height_mapPositions]

theorem evaluate_eq (same : first.SameShape second) :
    first.evaluate.mapError (EvalError.mapPosition fun _ => 0) =
      second.evaluate.mapError (EvalError.mapPosition fun _ => 0) := by
  rw [← evaluate_mapPositions, same, evaluate_mapPositions]

end SameShape

end Expr

end Arith
