import Arith.Evaluation
import Arith.Expr.Depth

/-! Walks over a tree that may go down so many levels and no further.

Evaluation and printing call themselves for the operands of a node, and a call within a
call is one level down. Both get by with as many levels as the tree is high, and printing
needs all of them.
-/

set_option autoImplicit false

namespace Arith.Expr

/-- The value of a tree, or nothing where the levels run out. An operand that fails keeps the
walk from going on. -/
def evaluateWithin : (levels : Nat) → Expr → Option (Except EvalError Int64)
  | 0, _ => none
  | _ + 1, .literal value _ => some (.ok value)
  | levels + 1, .operation op left right position =>
    match left.evaluateWithin levels with
    | none => none
    | some (.error cause) => some (.error cause)
    | some (.ok leftValue) =>
      match right.evaluateWithin levels with
      | none => none
      | some (.error cause) => some (.error cause)
      | some (.ok rightValue) => some (op.apply leftValue rightValue position)

def prefixFormWithin : (levels : Nat) → Expr → Option String
  | 0, _ => none
  | _ + 1, .literal value _ => some (toString value.toInt)
  | levels + 1, .operation op left right _ =>
    match left.prefixFormWithin levels, right.prefixFormWithin levels with
    | some leftForm, some rightForm =>
      some ("(" ++ op.symbol.toString ++ " " ++ leftForm ++ " " ++ rightForm ++ ")")
    | _, _ => none

theorem evaluateWithin_eq {expr : Expr} {levels : Nat} (enough : expr.height ≤ levels) :
    expr.evaluateWithin levels = some expr.evaluate := by
  induction expr generalizing levels with
  | literal value position =>
      cases levels with
      | zero => cases enough
      | succ levels => rfl
  | operation op left right position ihl ihr =>
      cases levels with
      | zero => simp [height] at enough
      | succ levels =>
          simp only [height] at enough
          rw [evaluateWithin, evaluate, ihl (by omega), ihr (by omega)]
          cases left.evaluate with
          | error cause => rfl
          | ok leftValue => cases right.evaluate <;> rfl

theorem prefixFormWithin_eq {expr : Expr} {levels : Nat} (enough : expr.height ≤ levels) :
    expr.prefixFormWithin levels = some expr.prefixForm := by
  induction expr generalizing levels with
  | literal value position =>
      cases levels with
      | zero => cases enough
      | succ levels => rfl
  | operation op left right position ihl ihr =>
      cases levels with
      | zero => simp [height] at enough
      | succ levels =>
          simp only [height] at enough
          rw [prefixFormWithin, ihl (by omega), ihr (by omega), prefixForm]

/-- Printing leaves no operand out, so fewer levels are never enough. -/
theorem prefixFormWithin_eq_none {expr : Expr} {levels : Nat} (fewer : levels < expr.height) :
    expr.prefixFormWithin levels = none := by
  induction expr generalizing levels with
  | literal value position =>
      obtain rfl : levels = 0 := Nat.lt_one_iff.mp fewer
      rfl
  | operation op left right position ihl ihr =>
      cases levels with
      | zero => rfl
      | succ levels =>
          simp only [height] at fewer
          rw [prefixFormWithin]
          by_cases short : levels < left.height
          · rw [ihl short]
          · rw [ihr (by omega)]
            cases left.prefixFormWithin levels <;> rfl

structure WalkedWithin (levels : Nat) (expr : Expr) : Prop where
  evaluate : expr.evaluateWithin levels = some expr.evaluate
  prefixForm : expr.prefixFormWithin levels = some expr.prefixForm

theorem walkedWithin_iff {expr : Expr} {levels : Nat} :
    expr.WalkedWithin levels ↔ expr.height ≤ levels := by
  constructor
  · intro walked
    apply Nat.le_of_not_lt
    intro fewer
    have printed := walked.prefixForm
    rw [prefixFormWithin_eq_none fewer] at printed
    cases printed
  · intro enough
    exact ⟨evaluateWithin_eq enough, prefixFormWithin_eq enough⟩

end Arith.Expr
