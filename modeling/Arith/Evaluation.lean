import Arith.Expr
import Arith.Operator.Checked

/-! The value of a tree on 64-bit words, or the first operation that has none. -/

set_option autoImplicit false

namespace Arith

/-- Why an operation has no value; `position` is that of its operator. -/
inductive EvalError where
  | divisionByZero (position : Nat)
  | overflow (op : Operator) (position : Nat)
  deriving DecidableEq, Repr

def EvalError.message : EvalError → String
  | .divisionByZero position => s!"Error at token {position}: Division by zero."
  | .overflow op position => s!"Error at token {position}: Integer overflow in '{op.symbol}'."

/-- An operation of a tree. A zero divisor is reported as such, whatever the dividend. -/
def Operator.apply (op : Operator) (left right : Int64) (position : Nat) :
    Except EvalError Int64 :=
  if op = .div ∧ right = 0 then .error (.divisionByZero position)
  else
    match op.checked left right with
    | some value => .ok value
    | none => .error (.overflow op position)

/-- Left operand, right operand, operation: the first of them to fail decides. -/
def Expr.evaluate : Expr → Except EvalError Int64
  | .literal value _ => .ok value
  | .operation op left right position =>
    match left.evaluate with
    | .error cause => .error cause
    | .ok leftValue =>
      match right.evaluate with
      | .error cause => .error cause
      | .ok rightValue => op.apply leftValue rightValue position

end Arith
