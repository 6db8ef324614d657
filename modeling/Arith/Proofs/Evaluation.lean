import Arith.Proofs.Tree

/-! Evaluation on words against evaluation on the unbounded integers.

A tree has a value exactly when no division by zero occurs on the integers and every
node has a word as its value there. Otherwise the error is that of the first node, in
the order left operand, right operand, node, whose operands have values while it has
none itself.
-/

set_option autoImplicit false

namespace Arith

namespace Tree

def value? : Tree → Option Int
  | .literal value _ => some value
  | .operation op left right _ =>
    match left.value?, right.value? with
    | some leftValue, some rightValue => op.unbounded? leftValue rightValue
    | _, _ => none

/-- The tree has the given value over the integers, and all its nodes are words there. -/
def Evaluates (tree : Tree) (value : Int) : Prop :=
  tree.value? = some value ∧
    ∀ node ∈ tree.subtrees, ∃ inner, node.value? = some inner ∧ Fits inner

/-- The root has operands with values but has no value itself. -/
inductive FailsWith : Tree → EvalError → Prop where
  | zero {left right : Tree} {leftValue : Int} {position : Nat} :
      left.Evaluates leftValue → right.Evaluates 0 →
      FailsWith (.operation .div left right position) (.divisionByZero position)
  | overflow {op : Operator} {left right : Tree} {leftValue rightValue value : Int}
      {position : Nat} :
      left.Evaluates leftValue → right.Evaluates rightValue →
      op.unbounded? leftValue rightValue = some value → ¬ Fits value →
      FailsWith (.operation op left right position) (.overflow op position)

def FirstFailure (tree : Tree) (cause : EvalError) : Prop :=
  ∃ earlier node later, tree.subtrees = earlier ++ node :: later ∧ node.FailsWith cause ∧
    ∀ before ∈ earlier, ∀ other, ¬ before.FailsWith other

theorem Evaluates.unique {tree : Tree} {first second : Int}
    (left : tree.Evaluates first) (right : tree.Evaluates second) : first = second :=
  Option.some.inj (left.1.symm.trans right.1)

theorem Evaluates.fits {tree : Tree} {value : Int} (evaluates : tree.Evaluates value) :
    Fits value := by
  obtain ⟨inner, found, fits⟩ := evaluates.2 tree tree.mem_subtrees_self
  rw [Option.some.inj (evaluates.1.symm.trans found)]
  exact fits

theorem evaluates_literal {value : Int} (fits : Fits value) (position : Nat) :
    (literal value position).Evaluates value := by
  refine ⟨rfl, ?_⟩
  intro node member
  rw [subtrees, List.mem_singleton] at member
  exact ⟨value, member ▸ rfl, fits⟩

theorem evaluates_operation {op : Operator} {left right : Tree} {leftValue rightValue value : Int}
    (leftEvaluates : left.Evaluates leftValue) (rightEvaluates : right.Evaluates rightValue)
    (result : op.unbounded? leftValue rightValue = some value) (fits : Fits value)
    (position : Nat) : (operation op left right position).Evaluates value := by
  have root : (operation op left right position).value? = some value := by
    simp only [value?, leftEvaluates.1, rightEvaluates.1, result]
  refine ⟨root, ?_⟩
  intro node member
  simp only [subtrees, List.mem_append, List.mem_singleton] at member
  rcases member with (inLeft | inRight) | rfl
  · exact leftEvaluates.2 node inLeft
  · exact rightEvaluates.2 node inRight
  · exact ⟨value, root, fits⟩

theorem FailsWith.not_word {node : Tree} {cause : EvalError} (fails : node.FailsWith cause)
    {value : Int} (found : node.value? = some value) : ¬ Fits value := by
  cases fails with
  | zero left right =>
      simp [value?, left.1, right.1, Operator.unbounded?] at found
  | overflow left right result unfit =>
      simp only [value?, left.1, right.1, result] at found
      cases found
      exact unfit

theorem FailsWith.unique {node : Tree} {first second : EvalError}
    (left : node.FailsWith first) (right : node.FailsWith second) : first = second := by
  cases left with
  | zero leftOperand rightOperand =>
      cases right with
      | zero => rfl
      | overflow otherLeft otherRight result =>
          cases rightOperand.unique otherRight
          cases result
  | overflow leftOperand rightOperand result =>
      cases right with
      | zero otherLeft otherRight =>
          cases rightOperand.unique otherRight
          cases result
      | overflow => rfl

theorem Evaluates.not_fails {tree : Tree} {value : Int} (evaluates : tree.Evaluates value)
    {node : Tree} (member : node ∈ tree.subtrees) (cause : EvalError) :
    ¬ node.FailsWith cause := by
  intro fails
  obtain ⟨inner, found, fits⟩ := evaluates.2 node member
  exact fails.not_word found fits

theorem Evaluates.not_firstFailure {tree : Tree} {value : Int} (evaluates : tree.Evaluates value)
    (cause : EvalError) : ¬ tree.FirstFailure cause := by
  intro failing
  obtain ⟨earlier, node, later, split, fails, -⟩ := failing
  exact evaluates.not_fails (by simp [split]) cause fails

private theorem split_cases {α : Type} {earlier earlier' later later' : List α} {node node' : α}
    (same : earlier ++ node :: later = earlier' ++ node' :: later') :
    node = node' ∨ node ∈ earlier' ∨ node' ∈ earlier := by
  rcases List.append_eq_append_iff.mp same with
    ⟨_ | ⟨head, tail⟩, before, after⟩ | ⟨_ | ⟨head, tail⟩, before, after⟩ <;>
    simp_all

theorem FirstFailure.unique {tree : Tree} {first second : EvalError}
    (left : tree.FirstFailure first) (right : tree.FirstFailure second) : first = second := by
  obtain ⟨earlier, node, later, split, fails, regular⟩ := left
  obtain ⟨earlier', node', later', split', fails', regular'⟩ := right
  rcases split_cases (split.symm.trans split') with rfl | member | member
  · exact fails.unique fails'
  · exact absurd fails (regular' node member first)
  · exact absurd fails' (regular node' member second)

section
variable {op : Operator} {left right : Tree} {cause : EvalError} (position : Nat)

theorem FirstFailure.ofLeft (failure : left.FirstFailure cause) :
    (operation op left right position).FirstFailure cause := by
  obtain ⟨earlier, node, later, split, fails, regular⟩ := failure
  refine ⟨earlier, node, later ++ right.subtrees ++ [operation op left right position], ?_,
    fails, regular⟩
  simp only [subtrees, split, List.append_assoc, List.cons_append]

theorem FirstFailure.ofRight {leftValue : Int} (evaluates : left.Evaluates leftValue)
    (failure : right.FirstFailure cause) :
    (operation op left right position).FirstFailure cause := by
  obtain ⟨earlier, node, later, split, fails, regular⟩ := failure
  refine ⟨left.subtrees ++ earlier, node, later ++ [operation op left right position], ?_,
    fails, ?_⟩
  · simp only [subtrees, split, List.append_assoc, List.cons_append]
  · intro before member other
    rcases List.mem_append.mp member with inLeft | inRight
    · exact evaluates.not_fails inLeft other
    · exact regular before inRight other

theorem FailsWith.firstFailure {leftValue rightValue : Int}
    (fails : (operation op left right position).FailsWith cause)
    (leftEvaluates : left.Evaluates leftValue) (rightEvaluates : right.Evaluates rightValue) :
    (operation op left right position).FirstFailure cause := by
  refine ⟨left.subtrees ++ right.subtrees, _, [], rfl, fails, ?_⟩
  intro before member other
  rcases List.mem_append.mp member with inLeft | inRight
  · exact leftEvaluates.not_fails inLeft other
  · exact rightEvaluates.not_fails inRight other

end

theorem apply_spec (op : Operator) {left right : Tree} {leftValue rightValue : Int64}
    (position : Nat) (leftEvaluates : left.Evaluates leftValue.toInt)
    (rightEvaluates : right.Evaluates rightValue.toInt) :
    match op.apply leftValue rightValue position with
    | .ok value => (operation op left right position).Evaluates value.toInt
    | .error cause => (operation op left right position).FailsWith cause := by
  rw [Operator.apply_eq]
  cases result : op.unbounded? leftValue.toInt rightValue.toInt with
  | none =>
      obtain ⟨rfl, zero⟩ := Operator.unbounded?_eq_none_iff.mp result
      rw [zero] at rightEvaluates
      exact .zero leftEvaluates rightEvaluates
  | some value =>
      by_cases fits : Fits value
      · simp only [if_pos fits, toInt_ofInt fits]
        exact evaluates_operation leftEvaluates rightEvaluates result fits position
      · simp only [if_neg fits]
        exact .overflow leftEvaluates rightEvaluates result fits

/-- A quotient of words overflows only as the negation of the least word. -/
theorem division_overflows_iff {left right : Tree} {leftValue rightValue : Int} (position : Nat)
    (leftEvaluates : left.Evaluates leftValue) (rightEvaluates : right.Evaluates rightValue) :
    (operation .div left right position).FailsWith (.overflow .div position) ↔
      leftValue = Int64.minValue.toInt ∧ rightValue = -1 := by
  constructor
  · intro fails
    cases fails with
    | overflow otherLeft otherRight result unfit =>
        cases leftEvaluates.unique otherLeft
        cases rightEvaluates.unique otherRight
        simp only [Operator.unbounded?] at result
        split at result
        · cases result
        · cases result
          rw [← toInt_ofInt leftEvaluates.fits, ← toInt_ofInt rightEvaluates.fits, fits_tdiv,
            Decidable.not_not] at unfit
          rw [← toInt_ofInt leftEvaluates.fits, ← toInt_ofInt rightEvaluates.fits, unfit.1, unfit.2]
          exact ⟨rfl, rfl⟩
  · intro bounds
    obtain ⟨rfl, rfl⟩ := bounds
    exact .overflow leftEvaluates rightEvaluates rfl (by decide)

end Tree

namespace Expr

open Arith.Tree

theorem evaluate_spec (expr : Expr) :
    match expr.evaluate with
    | .ok value => expr.tree.Evaluates value.toInt
    | .error cause => expr.tree.FirstFailure cause := by
  induction expr with
  | literal value position => exact evaluates_literal (fits_toInt value) position
  | operation op left right position ihl ihr =>
      rw [evaluate]
      cases leftResult : left.evaluate with
      | error cause =>
          rw [leftResult] at ihl
          exact ihl.ofLeft position
      | ok leftValue =>
          rw [leftResult] at ihl
          cases rightResult : right.evaluate with
          | error cause =>
              rw [rightResult] at ihr
              exact ihr.ofRight position ihl
          | ok rightValue =>
              rw [rightResult] at ihr
              have spec := apply_spec op position ihl ihr
              simp only
              cases applied : op.apply leftValue rightValue position with
              | error cause =>
                  rw [applied] at spec
                  exact spec.firstFailure position ihl ihr
              | ok value =>
                  rw [applied] at spec
                  exact spec

theorem evaluate_eq_ok_iff (expr : Expr) (value : Int64) :
    expr.evaluate = .ok value ↔ expr.tree.Evaluates value.toInt := by
  have spec := expr.evaluate_spec
  cases result : expr.evaluate with
  | ok actual =>
      rw [result] at spec
      rw [Except.ok.injEq]
      constructor
      · rintro rfl
        exact spec
      · intro evaluates
        exact Int64.toInt_inj.mp (spec.unique evaluates)
  | error cause =>
      rw [result] at spec
      simp only [reduceCtorEq, false_iff]
      intro evaluates
      exact evaluates.not_firstFailure cause spec

theorem evaluate_eq_error_iff (expr : Expr) (cause : EvalError) :
    expr.evaluate = .error cause ↔ expr.tree.FirstFailure cause := by
  have spec := expr.evaluate_spec
  cases result : expr.evaluate with
  | ok value =>
      rw [result] at spec
      simp only [reduceCtorEq, false_iff]
      exact spec.not_firstFailure cause
  | error actual =>
      rw [result] at spec
      rw [Except.error.injEq]
      constructor
      · rintro rfl
        exact spec
      · exact spec.unique

/-- Evaluation on words is exact: it gives the value over the integers where every node
is a word, and the error of the first failing node otherwise. -/
theorem evaluate_exact (expr : Expr) :
    (∀ value, expr.evaluate = .ok value ↔ expr.tree.Evaluates value.toInt) ∧
    (∀ cause, expr.evaluate = .error cause ↔ expr.tree.FirstFailure cause) ∧
    ∀ (left right : Tree) (position : Nat) (leftValue rightValue : Int),
      left.Evaluates leftValue → right.Evaluates rightValue →
      ((Tree.operation .div left right position).FailsWith (.overflow .div position) ↔
        leftValue = Int64.minValue.toInt ∧ rightValue = -1) := by
  refine ⟨expr.evaluate_eq_ok_iff, expr.evaluate_eq_error_iff, ?_⟩
  intro left right position leftValue rightValue leftEvaluates rightEvaluates
  exact division_overflows_iff position leftEvaluates rightEvaluates

end Expr

end Arith
