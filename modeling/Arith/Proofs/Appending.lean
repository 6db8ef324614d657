import Arith.Proofs.Acceptance
import Arith.Proofs.Relocation

/-! One more operator and factor behind a sequence.

A sum or difference joins the whole tree. A product or quotient joins the last term only:
what stands before it, up to the last operator that binds less tightly outside all
parentheses, is left as it was.
-/

set_option autoImplicit false

namespace Arith

def Outermost (tokens : List Token) (op : Operator) (index : Nat) : Prop :=
  StandsAt [] 0 tokens (.operator op) 0 index

/-- The last sum or difference outside all parentheses. -/
structure LastSum (tokens : List Token) (op : Operator) (index : Nat) : Prop where
  loose : op.isMultiplicative = false
  stands : Outermost tokens op index
  last : ∀ other later, other.isMultiplicative = false → Outermost tokens other later →
    later ≤ index

/-- The tree, or the error that its operation at the position is too deep. -/
def limited (position : Nat) (expr : Expr) : Except ParseError Expr :=
  if expr.depth ≤ maxTreeDepth then .ok expr else .error (.expressionTooDeep position)

theorem limited_of_height_le {position : Nat} {expr : Expr} (shallow : expr.height ≤ maxTreeDepth) :
    limited position expr = .ok expr := by
  rw [limited, expr.depth_eq_height, if_pos shallow]

theorem parseTree_limited (phrase : Phrase .expression) {expr : Expr} {position point : Nat}
    (same : phrase.tree 0 = expr.tree)
    (only : phrase.faults 0 0 =
      if (phrase.tree 0).height ≤ maxTreeDepth then []
      else [⟨.expressionTooDeep position, point⟩]) :
    parseTree phrase.tokens = limited position expr := by
  rw [parseTree_tokens, only, same, Tree.height_tree, Tree.expr_tree]
  by_cases shallow : expr.height ≤ maxTreeDepth
  · rw [if_pos shallow, limited_of_height_le shallow]
  · rw [if_neg shallow, limited, expr.depth_eq_height, if_neg shallow]

namespace Phrase

theorem faults_joined {tight : Bool} (left : Phrase (.chain tight)) (op : Operator)
    (accepted : op.isMultiplicative = tight) (right : Phrase (.operand tight))
    {nesting base : Nat} (inLeft : left.faults nesting base = [])
    (inRight : right.faults nesting (base + left.tokens.length + 1) = []) :
    (left.joined op accepted right).faults nesting base =
      if ((left.joined op accepted right).tree base).height ≤ maxTreeDepth then []
      else [⟨.expressionTooDeep (base + left.tokens.length),
        base + (left.joined op accepted right).tokens.length⟩] := by
  rw [faults, inLeft, inRight, List.nil_append, List.nil_append]

theorem not_lastSum_term (phrase : Phrase .term) (op : Operator) (index : Nat) :
    ¬ LastSum phrase.tokens op index := by
  intro sum
  have tightly := (phrase.exposed sum.stands).2 rfl
  rw [sum.loose] at tightly
  cases tightly

theorem lastSum_joined (left : Phrase .expression) {op : Operator}
    (loose : op.isMultiplicative = false) (right : Phrase .term) :
    LastSum (left.joined op loose right).tokens op left.tokens.length where
  loose := loose
  stands := left.standsAt_op op loose right
  last := by
    intro other later otherLoose stands
    exact left.le_of_exposed loose right otherLoose stands

end Phrase

theorem LastSum.unique {tokens : List Token} {op other : Operator} {index later : Nat}
    (first : LastSum tokens op index) (second : LastSum tokens other later) :
    index = later ∧ op = other := by
  have notAfter := second.last op index first.loose first.stands
  have notBefore := first.last other later second.loose second.stands
  obtain rfl := Nat.le_antisymm notAfter notBefore
  have here := first.stands.1
  rw [second.stands.1] at here
  cases here
  exact ⟨rfl, rfl⟩

section
variable {factor : Phrase .factor} {next : Expr} {op : Operator}

/-- The operator joins the whole of a phrase that has no sum outside its parentheses, and of
any phrase if it makes a sum itself. -/
theorem parseTree_joins_all {phrase : Phrase .expression} {expr : Expr}
    (faultless : phrase.faults 0 0 = []) (same : phrase.tree 0 = expr.tree)
    (factorFaultless : factor.faults 0 (0 + phrase.tokens.length + 1) = [])
    (factorSame : factor.tree (0 + phrase.tokens.length + 1) = next.tree)
    (joins : op.isMultiplicative = false ∨
      ∀ other index, Outermost phrase.tokens other index → other.isMultiplicative = true) :
    parseTree (phrase.tokens ++ .operator op :: factor.tokens) =
      limited (0 + phrase.tokens.length)
        (.operation op expr next (0 + phrase.tokens.length)) := by
  cases tight : op.isMultiplicative with
  | false =>
      let term : Phrase .term := .operand factor
      have only := phrase.faults_joined op tight term faultless factorFaultless
      refine parseTree_limited (.joined phrase op tight term) ?_ only
      rw [Phrase.tree, Phrase.tree, same, factorSame, Expr.tree]
  | true =>
      cases phrase with
      | operand term =>
          have only := Phrase.faults_joined term op tight factor faultless factorFaultless
          refine parseTree_limited (.operand (.joined term op tight factor)) ?_ only
          rw [Phrase.tree] at same
          rw [Phrase.tokens] at factorSame
          rw [Phrase.tree, Phrase.tree, same, factorSame, Expr.tree, Phrase.tokens]
      | joined left sum loose right =>
          have stands : Outermost (left.joined sum loose right).tokens sum left.tokens.length :=
            left.standsAt_op sum loose right
          rcases joins with loosely | tightly
          · rw [tight] at loosely
            cases loosely
          · have bound := tightly _ _ stands
            rw [loose] at bound
            cases bound

/-- An operator that binds tightly joins the last term of a sum. -/
theorem parseTree_joins_last {left : Phrase .expression} {sum : Operator}
    (loose : sum.isMultiplicative = false) {right : Phrase .term} {rest last : Expr}
    (inLeft : left.faults 0 0 = []) (sameLeft : left.tree 0 = rest.tree)
    (inRight : right.faults 0 (0 + left.tokens.length + 1) = [])
    (sameRight : right.tree (0 + left.tokens.length + 1) = last.tree)
    (factorFaultless :
      factor.faults 0 (0 + left.tokens.length + 1 + right.tokens.length + 1) = [])
    (factorSame :
      factor.tree (0 + left.tokens.length + 1 + right.tokens.length + 1) = next.tree)
    (tight : op.isMultiplicative = true) :
    parseTree ((left.joined sum loose right).tokens ++ .operator op :: factor.tokens) =
      (limited (0 + left.tokens.length + 1 + right.tokens.length)
        (.operation op last next (0 + left.tokens.length + 1 + right.tokens.length))).bind
          fun term => limited (0 + left.tokens.length)
            (.operation sum rest term (0 + left.tokens.length)) := by
  let term : Phrase .term := .joined right op tight factor
  have tokens : (left.joined sum loose right).tokens ++ .operator op :: factor.tokens =
      (left.joined sum loose term).tokens := by
    simp only [term, Phrase.tokens, List.append_assoc, List.cons_append]
  have inTerm := right.faults_joined op tight factor inRight factorFaultless
  have sameTerm : term.tree (0 + left.tokens.length + 1) =
      (Expr.operation op last next (0 + left.tokens.length + 1 + right.tokens.length)).tree := by
    rw [Phrase.tree, sameRight, factorSame, Expr.tree]
  rw [tokens, limited, Expr.depth_eq_height, ← Tree.height_tree, ← sameTerm]
  by_cases shallow : (term.tree (0 + left.tokens.length + 1)).height ≤ maxTreeDepth
  · rw [if_pos shallow] at inTerm ⊢
    have only := left.faults_joined sum loose term inLeft inTerm
    refine parseTree_limited (left.joined sum loose term) ?_ only
    rw [Phrase.tree, sameLeft, sameTerm]
    rfl
  · -- The last term is complete before the sum, and its fault is the first.
    rw [if_neg shallow] at inTerm ⊢
    rw [parseTree_tokens, Phrase.faults, inLeft, inTerm]
    rfl

end

/-- One more operator and factor behind an accepted sequence. In the second part the term
that the operator makes is looked at before the sum that it is the last term of. -/
theorem appending_exact {tokens : List Token} {expr factorExpr : Expr} {factor : Phrase .factor}
    (accepted : parseTree tokens = .ok expr)
    (acceptedFactor : parseTree factor.tokens = .ok factorExpr) (op : Operator) :
    (op.isMultiplicative = false ∨
        (∀ other index, Outermost tokens other index → other.isMultiplicative = true) →
      parseTree (tokens ++ .operator op :: factor.tokens) =
        limited tokens.length (.operation op expr
          (factorExpr.mapPositions (· + (tokens.length + 1))) tokens.length)) ∧
    (op.isMultiplicative = true → ∀ sum index, LastSum tokens sum index →
      ∃ rest last, expr = .operation sum rest last index ∧
        parseTree (tokens ++ .operator op :: factor.tokens) =
          (limited tokens.length (.operation op last
            (factorExpr.mapPositions (· + (tokens.length + 1))) tokens.length)).bind fun term =>
              limited index (.operation sum rest term index)) := by
  obtain ⟨phrase, rfl⟩ := parseTree_ok accepted
  obtain ⟨faultless, same⟩ := (parseTree_eq_ok_iff_phrase phrase expr).mp accepted
  let alone : Phrase .expression := .operand (.operand factor : Phrase .term)
  have place : 0 + phrase.tokens.length = phrase.tokens.length := Nat.zero_add _
  have acceptedAlone := (parseTree_eq_ok_iff_phrase alone factorExpr).mp acceptedFactor
  have factorFaultless : factor.faults 0 (phrase.tokens.length + 1) = [] :=
    Phrase.faults_relocated acceptedAlone.1 (Nat.zero_le _) _
  have factorSame : factor.tree (phrase.tokens.length + 1) =
      (factorExpr.mapPositions (· + (phrase.tokens.length + 1))).tree := by
    have moved := alone.tree_shifted acceptedAlone.2 (phrase.tokens.length + 1)
    rwa [Nat.zero_add] at moved
  constructor
  · intro joins
    rw [← place] at factorFaultless factorSame
    have result := parseTree_joins_all faultless same factorFaultless factorSame joins
    rwa [place] at result
  · intro tight sum index isLast
    cases phrase with
    | operand term => exact absurd isLast (term.not_lastSum_term sum index)
    | joined left own loose right =>
        obtain ⟨rfl, rfl⟩ := isLast.unique (left.lastSum_joined loose right)
        obtain ⟨rest, last, rfl, inRest, inLast⟩ := Expr.eq_operation_of_tree same
        obtain ⟨faultlessLeft, faultlessRight, -⟩ :=
          (Phrase.faults_joined_eq_nil_iff _ _ _ _ _ _).mp faultless
        have total : 0 + left.tokens.length + 1 + right.tokens.length =
            (left.joined sum loose right).tokens.length := by
          rw [left.length_joined sum loose right, Nat.zero_add]
        rw [← total] at factorFaultless factorSame
        have result := parseTree_joins_last loose faultlessLeft inRest faultlessRight inLast
          factorFaultless factorSame tight
        rw [total, Nat.zero_add] at result
        exact ⟨rest, last, by rw [Nat.zero_add], result⟩

/-- The product takes the last operand of the difference. -/
theorem appending_product_to_difference :
    parseTree (lex "1-2") = .ok (.operation .sub (.literal 1 0) (.literal 2 2) 1) ∧
    parseTree (lex "3") = .ok (.literal 3 0) ∧
    LastSum (lex "1-2") .sub 1 ∧
    parseTree (lex "1-2*3") = .ok (.operation .sub (.literal 1 0)
      (.operation .mul (.literal 2 2) (.literal 3 4) 3) 1) := by
  let one : Phrase .expression := .operand (.operand (.literal [1] (by decide)) : Phrase .term)
  let two : Phrase .term := .operand (.literal [2] (by decide))
  let three : Phrase .factor := .literal [3] (by decide)
  let alone : Phrase .expression := .operand (.operand three : Phrase .term)
  have spelled : lex "1-2" = (one.joined .sub rfl two).tokens := by decide
  have accepted :
      parseTree (lex "1-2") = .ok (.operation .sub (.literal 1 0) (.literal 2 2) 1) := by
    rw [spelled, parseTree_tokens_eq_ok_iff]
    decide
  have acceptedFactor : parseTree three.tokens = .ok (.literal 3 0) := by
    change parseTree alone.tokens = _
    rw [parseTree_tokens_eq_ok_iff]
    decide
  have isLast : LastSum (lex "1-2") .sub 1 := by
    rw [spelled]
    exact one.lastSum_joined rfl two
  obtain ⟨rest, last, parts, result⟩ :=
    (appending_exact accepted acceptedFactor .mul).2 rfl .sub 1 isLast
  cases parts
  have length : (lex "1-2").length = 3 := by decide
  rw [length, limited_of_height_le (by decide), Except.bind, limited_of_height_le (by decide)]
    at result
  exact ⟨accepted, acceptedFactor, isLast, result⟩

end Arith
