import Arith.Operator

/-! Arithmetic on signed 64-bit words that refuses to wrap.

A result is given exactly when the unbounded result is a word. Words are added,
subtracted, multiplied and divided as such; the test for overflow stands apart.
-/

set_option autoImplicit false

namespace Arith.Operator

/-- Whether the unbounded result is no word. A quotient by a nonzero word leaves
the words in one case only, the negation of the least. -/
def overflows : Operator → Int64 → Int64 → Bool
  | .add, left, right => left.toBitVec.saddOverflow right.toBitVec
  | .sub, left, right => left.toBitVec.ssubOverflow right.toBitVec
  | .mul, left, right => left.toBitVec.smulOverflow right.toBitVec
  | .div, left, right => left == Int64.minValue && right == -1

def wrapping : Operator → Int64 → Int64 → Int64
  | .add, left, right => left + right
  | .sub, left, right => left - right
  | .mul, left, right => left * right
  | .div, left, right => left / right

/-- The operation where its result is a word. The divisor is to be nonzero. -/
def checked (op : Operator) (left right : Int64) : Option Int64 :=
  if op.overflows left right then none else some (op.wrapping left right)

end Arith.Operator
