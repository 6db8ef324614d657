import Arith.Expr.Postorder
import Arith.Proofs.Acceptance

/-! Trees in the order of their tokens.

Read as left operand, node, right operand, the tree of an accepted sequence lists the
runs of digits and the operators of the sequence where they stand. Only parentheses
leave no node, and each that opens is closed.
-/

set_option autoImplicit false

namespace Arith

def Node.position : Node → Nat
  | .literal _ position => position
  | .operation _ position => position

@[simp] theorem Node.position_operation (op : Operator) (position : Nat) :
    (Node.operation op position).position = position :=
  rfl

def Node.isLiteral : Node → Bool
  | .literal _ _ => true
  | .operation _ _ => false

/-- The node has the token at the index to it, alone or among the digits of a run. -/
def Node.Holds (tokens : List Token) (i : Nat) : Node → Prop
  | .literal _ position => ∃ digits, DigitRun tokens position digits ∧
      position ≤ i ∧ i < position + digits.length
  | .operation op position => i = position ∧ tokens[i]? = some (.operator op)

namespace EvalError

def position : EvalError → Nat
  | .divisionByZero position => position
  | .overflow _ position => position

def operator : EvalError → Operator
  | .divisionByZero _ => .div
  | .overflow op _ => op

end EvalError

namespace Expr

def inorder : Expr → List Node
  | .literal value position => [.literal value position]
  | .operation op left right position =>
    left.inorder ++ .operation op position :: right.inorder

/-- The nodes of the tree are the runs of digits and the operators of the sequence, each
once and in the order in which they stand there. All other tokens are parentheses. -/
structure InSourceOrder (expr : Expr) (tokens : List Token) : Prop where
  sorted : (expr.inorder.map Node.position).Pairwise (· < ·)
  literals : ∀ (value : Int64) (position : Nat), .literal value position ∈ expr.inorder ↔
    ∃ digits, DigitRun tokens position digits ∧ value.toInt = digitsValue digits
  operations : ∀ op position, .operation op position ∈ expr.inorder ↔
    tokens[position]? = some (.operator op)
  others : ∀ i token, tokens[i]? = some token →
    (∃ node ∈ expr.inorder, node.Holds tokens i) ∨ token = .openParen ∨ token = .closeParen
  balanced : tokens.count .openParen = tokens.count .closeParen
  leaves : expr.inorder.countP Node.isLiteral =
    expr.inorder.countP (fun node => !node.isLiteral) + 1

theorem countP_inorder (expr : Expr) :
    expr.inorder.countP Node.isLiteral =
      expr.inorder.countP (fun node => !node.isLiteral) + 1 := by
  induction expr with
  | literal value position => rfl
  | operation op left right position ihl ihr =>
      simp only [inorder, List.countP_append, List.countP_cons, Node.isLiteral, ihl, ihr]
      simp only [Bool.false_eq_true, Bool.not_false, if_true, if_false]
      omega

theorem literal_mem_subtrees (expr : Expr) (value : Int) (position : Nat) :
    .literal value position ∈ expr.tree.subtrees ↔
      ∃ word : Int64, word.toInt = value ∧ .literal word position ∈ expr.inorder := by
  induction expr with
  | literal other place =>
      simp only [inorder, tree, Tree.subtrees, List.mem_singleton, Node.literal.injEq,
        Tree.literal.injEq]
      constructor
      · intro same
        obtain ⟨rfl, rfl⟩ := same
        exact ⟨other, rfl, rfl, rfl⟩
      · intro same
        obtain ⟨_, rfl, rfl, rfl⟩ := same
        exact ⟨rfl, rfl⟩
  | operation op left right place ihl ihr =>
      simp only [inorder, tree, Tree.subtrees, List.mem_append, List.mem_cons, ihl, ihr,
        reduceCtorEq, false_or, List.not_mem_nil, or_false, and_or_left, exists_or]

theorem mem_inorder_of_error {expr : Expr} {cause : EvalError}
    (failed : expr.evaluate = .error cause) :
    .operation cause.operator cause.position ∈ expr.inorder := by
  induction expr with
  | literal value position => cases failed
  | operation op left right position ihl ihr =>
      rw [inorder, List.mem_append, List.mem_cons]
      rw [evaluate] at failed
      cases leftResult : left.evaluate with
      | error other =>
          rw [leftResult] at failed
          cases failed
          exact .inl (ihl leftResult)
      | ok leftValue =>
          rw [leftResult] at failed
          cases rightResult : right.evaluate with
          | error other =>
              rw [rightResult] at failed
              cases failed
              exact .inr (.inr (ihr rightResult))
          | ok rightValue =>
              rw [rightResult] at failed
              simp only [Operator.apply] at failed
              -- Both errors of an operation carry its own operator and position.
              split at failed
              · rename_i zero
                cases failed
                rw [zero.1]
                exact .inr (.inl rfl)
              · split at failed
                · cases failed
                · cases failed
                  exact .inr (.inl rfl)

end Expr

namespace Phrase

variable {category : Category}

theorem mem_inorder_operation (phrase : Phrase category) {base : Nat} {expr : Expr}
    (same : phrase.tree base = expr.tree) (op : Operator) (position : Nat) :
    .operation op position ∈ expr.inorder ↔
      ∃ offset, position = base + offset ∧ phrase.tokens[offset]? = some (.operator op) := by
  induction phrase generalizing base expr with
  | literal digits nonempty =>
      obtain ⟨word, rfl, -⟩ := Expr.eq_literal_of_tree same
      simp [Expr.inorder, tokens]
  | group inner ih =>
      simp only [ih same, tokens, look_group, reduceCtorEq, and_false, false_or, or_false]
      constructor
      · intro inside
        obtain ⟨offset, rfl, found⟩ := inside
        exact ⟨offset + 1, by omega, offset, rfl, found⟩
      · intro inside
        obtain ⟨-, rfl, offset, rfl, found⟩ := inside
        exact ⟨offset, by omega, found⟩
  | operand only ih => exact ih same
  | joined left own accepted right ihl ihr =>
      obtain ⟨leftExpr, rightExpr, rfl, inLeft, inRight⟩ := Expr.eq_operation_of_tree same
      simp only [Expr.inorder, List.mem_append, List.mem_cons, ihl inLeft, ihr inRight,
        Node.operation.injEq, tokens, look_iff, Token.operator.injEq]
      constructor
      · intro inPart
        rcases inPart with ⟨offset, rfl, found⟩ | ⟨rfl, rfl⟩ | ⟨offset, rfl, found⟩
        · exact ⟨offset, rfl, .inl found⟩
        · exact ⟨_, rfl, .inr (.inl ⟨rfl, rfl⟩)⟩
        · exact ⟨_, by omega, .inr (.inr ⟨offset, rfl, found⟩)⟩
      · intro inPart
        obtain ⟨offset, rfl, found | ⟨rfl, rfl⟩ | ⟨further, rfl, found⟩⟩ := inPart
        · exact .inl ⟨offset, rfl, found⟩
        · exact .inr (.inl ⟨rfl, rfl⟩)
        · exact .inr (.inr ⟨further, by omega, found⟩)

/-- The nodes of a phrase have the positions of its own tokens. -/
theorem inorder_bounds (phrase : Phrase category) {base : Nat} {expr : Expr}
    (same : phrase.tree base = expr.tree) {node : Node} (member : node ∈ expr.inorder) :
    base ≤ node.position ∧ node.position < base + phrase.tokens.length := by
  cases node with
  | literal value position =>
      have inTree := (expr.literal_mem_subtrees value.toInt position).mpr ⟨value, rfl, member⟩
      rw [← same, mem_literals] at inTree
      obtain ⟨offset, digits, rfl, run, -⟩ := inTree
      have pos := run.length_pos
      have stop := run.stop_le
      simp only [Node.position]
      omega
  | operation op position =>
      obtain ⟨offset, rfl, found⟩ := (phrase.mem_inorder_operation same op position).mp member
      have bound := (List.getElem?_eq_some_iff.mp found).1
      simp only [Node.position]
      omega

theorem inorder_sorted (phrase : Phrase category) {base : Nat} {expr : Expr}
    (same : phrase.tree base = expr.tree) :
    (expr.inorder.map Node.position).Pairwise (· < ·) := by
  induction phrase generalizing base expr with
  | literal digits nonempty =>
      obtain ⟨word, rfl, -⟩ := Expr.eq_literal_of_tree same
      exact List.pairwise_singleton _ _
  | group inner ih => exact ih same
  | operand only ih => exact ih same
  | joined left own accepted right ihl ihr =>
      obtain ⟨leftExpr, rightExpr, rfl, inLeft, inRight⟩ := Expr.eq_operation_of_tree same
      simp only [Expr.inorder, List.map_append, List.map_cons, Node.position_operation,
        List.pairwise_append, List.pairwise_cons, List.mem_cons, List.mem_map]
      refine ⟨ihl inLeft, ⟨?_, ihr inRight⟩, ?_⟩
      · rintro - ⟨node, member, rfl⟩
        have bounds := right.inorder_bounds inRight member
        omega
      · rintro - ⟨node, member, rfl⟩ later behind
        have bounds := left.inorder_bounds inLeft member
        rcases behind with rfl | ⟨further, memberRight, rfl⟩
        · exact bounds.2
        · have boundsRight := right.inorder_bounds inRight memberRight
          omega

theorem exists_digitRun (phrase : Phrase category) {i : Nat} {digit : UInt8}
    (found : phrase.tokens[i]? = some (.digit digit)) :
    ∃ start digits, DigitRun phrase.tokens start digits ∧ start ≤ i ∧
      i < start + digits.length := by
  induction phrase generalizing i with
  | literal digits nonempty =>
      have bound := (List.getElem?_eq_some_iff.mp found).1
      rw [tokens, List.length_map] at bound
      exact ⟨0, digits, (digitRun_map nonempty 0 digits).mpr ⟨rfl, rfl⟩, Nat.zero_le _, by omega⟩
  | group inner ih =>
      simp only [tokens, look_group, reduceCtorEq, and_false, false_or, or_false] at found
      obtain ⟨offset, rfl, inside⟩ := found
      obtain ⟨start, digits, run, least, bound⟩ := ih inside
      exact ⟨start + 1, digits, digitRun_group.mpr ⟨start, rfl, run⟩, by omega, by omega⟩
  | operand only ih => exact ih found
  | joined left op accepted right ihl ihr =>
      have apart : ∀ digit, Token.operator op ≠ .digit digit := by simp
      rcases look_iff.mp found with inLeft | ⟨-, other⟩ | ⟨offset, rfl, inRight⟩
      · obtain ⟨start, digits, run, least, bound⟩ := ihl inLeft
        exact ⟨start, digits, run.ofLeft apart, least, bound⟩
      · cases other
      · obtain ⟨start, digits, run, least, bound⟩ := ihr inRight
        exact ⟨_, digits, run.ofRight apart, by omega, by omega⟩

theorem inorder_literals (phrase : Phrase category) {expr : Expr}
    (same : phrase.tree 0 = expr.tree) (value : Int) (position : Nat) :
    (∃ word : Int64, word.toInt = value ∧ .literal word position ∈ expr.inorder) ↔
      ∃ digits, DigitRun phrase.tokens position digits ∧ value = digitsValue digits := by
  rw [← Expr.literal_mem_subtrees, ← same, mem_literals]
  simp only [Nat.zero_add, exists_and_left, exists_eq_left']

theorem inSourceOrder (phrase : Phrase category) {expr : Expr}
    (same : phrase.tree 0 = expr.tree) : expr.InSourceOrder phrase.tokens where
  sorted := phrase.inorder_sorted same
  literals := by
    intro value position
    rw [← phrase.inorder_literals same]
    simp only [Int64.toInt_inj, exists_eq_left]
  operations := by
    intro op position
    rw [phrase.mem_inorder_operation same]
    simp only [Nat.zero_add, exists_eq_left']
  others := by
    intro i token found
    cases token with
    | openParen => exact .inr (.inl rfl)
    | closeParen => exact .inr (.inr rfl)
    | operator op =>
        refine .inl ⟨.operation op i, ?_, rfl, found⟩
        exact (phrase.mem_inorder_operation same op i).mpr ⟨i, (Nat.zero_add i).symm, found⟩
    | digit digit =>
        obtain ⟨start, digits, run, least, bound⟩ := phrase.exists_digitRun found
        obtain ⟨word, -, member⟩ := (phrase.inorder_literals same _ start).mpr ⟨digits, run, rfl⟩
        exact .inl ⟨.literal word start, member, digits, run, least, bound⟩
  balanced := phrase.count_parens.1.trans phrase.count_parens.2.symm
  leaves := expr.countP_inorder

end Phrase

/-- The tree of an accepted sequence lists its runs of digits and its operators in order,
and an operation without a value is reported at its operator. -/
theorem inorder_exact {tokens : List Token} {expr : Expr}
    (accepted : parseTree tokens = .ok expr) :
    expr.InSourceOrder tokens ∧ ∀ cause, parse tokens = .error (.evaluation cause) →
      tokens[cause.position]? = some (.operator cause.operator) := by
  obtain ⟨phrase, rfl⟩ := parseTree_ok accepted
  have same := ((parseTree_eq_ok_iff_phrase phrase expr).mp accepted).2
  have order := phrase.inSourceOrder same
  refine ⟨order, ?_⟩
  intro cause failed
  simp only [parse, accepted] at failed
  cases result : expr.evaluate with
  | ok value =>
      rw [result] at failed
      cases failed
  | error actual =>
      rw [result] at failed
      cases failed
      exact (order.operations _ _).mp (Expr.mem_inorder_of_error result)

theorem inorder_failing_quotient :
    parseTree (lex "(8/0)*12") =
      .ok (.operation .mul (.operation .div (.literal 8 1) (.literal 0 3) 2) (.literal 12 6) 5) ∧
    (Expr.operation .mul (.operation .div (.literal 8 1) (.literal 0 3) 2)
      (.literal 12 6) 5).InSourceOrder (lex "(8/0)*12") ∧
    parse (lex "(8/0)*12") = .error (.evaluation (.divisionByZero 2)) ∧
    (lex "(8/0)*12")[2]? = some (.operator .div) := by
  let quotient : Phrase .term :=
    .joined (.operand (.literal [8] (by decide))) .div rfl (.literal [0] (by decide))
  let product : Phrase .term :=
    .joined (.operand (.group (.operand quotient))) .mul rfl (.literal [1, 2] (by decide))
  have spelled : lex "(8/0)*12" = (Phrase.operand product : Phrase .expression).tokens := by
    decide
  have accepted : parseTree (lex "(8/0)*12") =
      .ok (.operation .mul (.operation .div (.literal 8 1) (.literal 0 3) 2)
        (.literal 12 6) 5) := by
    rw [spelled, parseTree_tokens_eq_ok_iff]
    decide
  have failed : parse (lex "(8/0)*12") = .error (.evaluation (.divisionByZero 2)) := by
    rw [parse, accepted]
    rfl
  obtain ⟨order, located⟩ := inorder_exact accepted
  exact ⟨accepted, order, failed, located _ failed⟩

end Arith
