import Arith.Proofs.Numerals
import Arith.Proofs.Shape

/-! Trees read back from their prefix form.

An operation begins with a parenthesis and ends with one, and a literal ends where its
digits do. Hence a sign is never taken for an operator, and the reader finds the tree and
what follows it whatever that is, unless it continues the digits. Positions are not
printed: the reader puts zero for all of them.
-/

set_option autoImplicit false

namespace Arith.Expr

theorem prefixForm_mapPositions (f : Nat → Nat) (expr : Expr) :
    (expr.mapPositions f).prefixForm = expr.prefixForm := by
  induction expr with
  | literal value position => rfl
  | operation op left right position ihl ihr => simp only [mapPositions, prefixForm, ihl, ihr]

/-- A literal is read only where it is spelled as it would be printed. -/
def readLiteral (text : List Char) : Option (Expr × List Char) :=
  match readInt text with
  | (value, rest) =>
    if (toString (Int64.ofInt value).toInt).toList ++ rest = text then
      some (.literal (Int64.ofInt value) 0, rest)
    else none

/-- The tree that a text begins with, and what comes behind it. As many operations as the
allowance may be open at once. -/
def readWithin : (allowance : Nat) → List Char → Option (Expr × List Char)
  | allowance + 1, '(' :: symbol :: ' ' :: text =>
    match Operator.ofChar? symbol, readWithin allowance text with
    | some op, some (left, ' ' :: behind) =>
      match readWithin allowance behind with
      | some (right, ')' :: rest) => some (.operation op left right 0, rest)
      | _ => none
    | _, _ => none
  | _, text => readLiteral text

/-- No text has more operations than characters. -/
def readPrefix (text : List Char) : Option (Expr × List Char) :=
  readWithin text.length text

theorem toList_prefixForm_operation (op : Operator) (left right : Expr) (position : Nat)
    (rest : List Char) :
    (operation op left right position).prefixForm.toList ++ rest =
      '(' :: op.symbol :: ' ' ::
        (left.prefixForm.toList ++ ' ' :: (right.prefixForm.toList ++ ')' :: rest)) := by
  have opening : "(".toList = ['('] := by decide
  have space : " ".toList = [' '] := by decide
  have closing : ")".toList = [')'] := by decide
  simp only [prefixForm, String.toList_append, opening, space, closing, Char.toString_eq_singleton,
    String.toList_singleton, List.append_assoc, List.cons_append, List.nil_append]

theorem readLiteral_prefixForm (value : Int64) (position : Nat) {rest : List Char}
    (apart : EndsNumeral rest) :
    readLiteral ((literal value position).prefixForm.toList ++ rest) =
      some (.literal value 0, rest) := by
  simp only [readLiteral, prefixForm, readInt_toString _ apart, Int64.ofInt_toInt, if_true]

theorem readLiteral_eq_some {text rest : List Char} {expr : Expr}
    (found : readLiteral text = some (expr, rest)) :
    text = expr.prefixForm.toList ++ rest := by
  simp only [readLiteral] at found
  split at found
  · next spelled =>
    cases found
    exact spelled.symm
  · cases found

theorem readLiteral_openParen (text : List Char) : readLiteral ('(' :: text) = none := by
  have zero : (toString (Int64.ofInt 0).toInt).toList = ['0'] := by decide
  have unread : readInt ('(' :: text) = (0, '(' :: text) := rfl
  have different : '0' :: '(' :: text ≠ '(' :: text := by simp
  simp only [readLiteral, unread, zero, List.cons_append, List.nil_append, if_neg different]

/-- What is a literal is read as one, since no literal begins with a parenthesis. -/
theorem readWithin_of_readLiteral (allowance : Nat) {text rest : List Char} {expr : Expr}
    (found : readLiteral text = some (expr, rest)) :
    readWithin allowance text = some (expr, rest) := by
  unfold readWithin
  split
  · rw [readLiteral_openParen] at found
    cases found
  · exact found

theorem readWithin_prefixForm (expr : Expr) {allowance : Nat}
    (enough : expr.height ≤ allowance + 1) {rest : List Char} (apart : EndsNumeral rest) :
    readWithin allowance (expr.prefixForm.toList ++ rest) =
      some (expr.mapPositions fun _ => 0, rest) := by
  induction expr generalizing allowance rest with
  | literal value position =>
      exact readWithin_of_readLiteral allowance (readLiteral_prefixForm value position apart)
  | operation op left right position ihl ihr =>
      have leftHeight := left.height_pos
      simp only [height] at enough
      obtain ⟨deeper, rfl⟩ : ∃ deeper, allowance = deeper + 1 := ⟨allowance - 1, by omega⟩
      have enoughLeft : left.height ≤ deeper + 1 := by omega
      have enoughRight : right.height ≤ deeper + 1 := by omega
      -- a blank comes behind the left operand and a parenthesis behind the right one, so that
      -- a literal in either place ends there
      have inLeft := ihl enoughLeft
        (endsNumeral_cons (c := ' ') (by decide) (right.prefixForm.toList ++ ')' :: rest))
      have inRight := ihr enoughRight (endsNumeral_cons (c := ')') (by decide) rest)
      rw [toList_prefixForm_operation, readWithin, Operator.ofChar?_symbol, inLeft]
      simp only [inRight]
      rfl

theorem readWithin_eq_some {allowance : Nat} {text rest : List Char} {expr : Expr}
    (found : readWithin allowance text = some (expr, rest)) :
    text = expr.prefixForm.toList ++ rest := by
  -- the second and third cases are those of an opened operation that is not completed
  fun_induction readWithin allowance text generalizing expr rest with
  | case1 allowance symbol text op left behind readLeft isOperator right after readRight ihl ihr =>
      cases found
      rw [toList_prefixForm_operation, Operator.symbol_of_ofChar? isOperator, ihl readLeft,
        ihr readRight]
  | case2 => cases found
  | case3 => cases found
  | case4 => exact readLiteral_eq_some found

theorem height_le_length (expr : Expr) : expr.height ≤ expr.prefixForm.toList.length + 1 := by
  induction expr with
  | literal value position => exact Nat.le_add_left _ _
  | operation op left right position ihl ihr =>
      have spelled := congrArg List.length (toList_prefixForm_operation op left right position [])
      simp only [List.append_nil, List.length_append, List.length_cons] at spelled
      simp only [height]
      omega

theorem readPrefix_prefixForm (expr : Expr) {rest : List Char} (apart : EndsNumeral rest) :
    readPrefix (expr.prefixForm.toList ++ rest) = some (expr.mapPositions fun _ => 0, rest) := by
  have enough := expr.height_le_length
  refine readWithin_prefixForm expr ?_ apart
  rw [List.length_append]
  omega

theorem prefixForm_eq_iff (first second : Expr) :
    first.prefixForm = second.prefixForm ↔ first.SameShape second := by
  constructor
  · intro same
    have readFirst := first.readPrefix_prefixForm endsNumeral_nil
    have readSecond := second.readPrefix_prefixForm endsNumeral_nil
    rw [same, readSecond] at readFirst
    exact (congrArg Prod.fst (Option.some.inj readFirst)).symm
  · intro same
    rw [← first.prefixForm_mapPositions fun _ => 0, same, prefixForm_mapPositions]

/-- A prefix form belongs to one tree, positions apart, and the reader finds it whatever
follows, as long as that is no digit. -/
theorem readback_exact :
    (∀ first second : Expr, first.prefixForm = second.prefixForm ↔ first.SameShape second) ∧
    (∀ first second : Expr, first.prefixForm = second.prefixForm →
      (∃ value, first.evaluate = .ok value ∧ second.evaluate = .ok value) ∨
      ∃ index cause other, first.evaluate = .error cause ∧ second.evaluate = .error other ∧
        first.tree.FailsAt index cause ∧ second.tree.FailsAt index other ∧
        other.mapPosition (fun _ => 0) = cause.mapPosition fun _ => 0) ∧
    (∀ (expr : Expr) (rest : List Char), EndsNumeral rest →
      readPrefix (expr.prefixForm.toList ++ rest) = some (expr.mapPositions fun _ => 0, rest)) ∧
    ∀ (text rest : List Char) (expr : Expr), readPrefix text = some (expr, rest) →
      text = expr.prefixForm.toList ++ rest := by
  refine ⟨prefixForm_eq_iff, ?_, fun expr _ => expr.readPrefix_prefixForm, ?_⟩
  · intro first second same
    exact ((prefixForm_eq_iff first second).mp same).evaluate_cases
  · intro text rest expr found
    exact readWithin_eq_some found

/-- A minus sign is an operator, a sign of the minuend and part of what follows. -/
theorem readback_negative_minuend :
    ∃ first second : Expr,
      first = .operation .sub (.literal (-5) 0)
        (.operation .div (.literal 3 2) (.literal 0 4) 3) 1 ∧
      second = .operation .sub (.literal (-5) 8)
        (.operation .div (.literal 3 8) (.literal 0 8) 9) 8 ∧
      first.prefixForm = "(- -5 (/ 3 0))" ∧ second.prefixForm = "(- -5 (/ 3 0))" ∧
      first.SameShape second ∧
      (∃ index cause other, first.evaluate = .error cause ∧ second.evaluate = .error other ∧
        first.tree.FailsAt index cause ∧ second.tree.FailsAt index other) ∧
      EndsNumeral "-7".toList ∧
      readPrefix ("(- -5 (/ 3 0))".toList ++ "-7".toList) =
        some (first.mapPositions fun _ => 0, "-7".toList) := by
  let first : Expr := .operation .sub (.literal (-5) 0)
    (.operation .div (.literal 3 2) (.literal 0 4) 3) 1
  let second : Expr := .operation .sub (.literal (-5) 8)
    (.operation .div (.literal 3 8) (.literal 0 8) 9) 8
  have printed : first.prefixForm = "(- -5 (/ 3 0))" := by decide
  have printedSecond : second.prefixForm = "(- -5 (/ 3 0))" := by decide
  have same := printed.trans printedSecond.symm
  have failed : first.evaluate = .error (.divisionByZero 3) := rfl
  have apart : EndsNumeral "-7".toList := endsNumeral_cons (c := '-') (by decide) ['7']
  have read := readback_exact.2.2.1 first _ apart
  rw [printed] at read
  refine ⟨first, second, rfl, rfl, printed, printedSecond, (readback_exact.1 _ _).mp same, ?_,
    apart, read⟩
  rcases readback_exact.2.1 _ _ same with ⟨value, evaluated, -⟩ | found
  · rw [failed] at evaluated
    cases evaluated
  · obtain ⟨index, cause, other, atFirst, atSecond, failsFirst, failsSecond, -⟩ := found
    exact ⟨index, cause, other, atFirst, atSecond, failsFirst, failsSecond⟩

end Arith.Expr
