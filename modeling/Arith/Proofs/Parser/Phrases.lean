import Arith.Parse
import Arith.Proofs.Parser.Steps

/-! The rules on the tokens of a phrase.

A rule reads a phrase to its end and builds its tree, or stops with the first fault of
the phrase. A repetition may have to read on: what is left of the rule then is `resume`.
-/

set_option autoImplicit false

namespace Arith

open Arith.Parser

namespace Category

def accepts (tight : Bool) (op : Operator) : Bool :=
  op.isMultiplicative == tight

def rule (allowance : Nat) : Category → Rule
  | .factor => Parser.factor allowance
  | .chain true => termOf (Parser.factor allowance)
  | .chain false => expressionOf (Parser.factor allowance)

/-- What is left of the rule once a phrase of the category has been read. -/
def resume (allowance : Nat) : Category → Parsed → State → Outcome
  | .factor, parsed, state => ⟨.ok parsed, state⟩
  | .chain tight, parsed, state =>
    chainFrom (accepts tight) (rule allowance (.operand tight)) parsed state

theorem rule_chain (allowance : Nat) (tight : Bool) :
    rule allowance (.chain tight) =
      Parser.chain (accepts tight) (rule allowance (.operand tight)) := by
  cases tight with
  | true =>
      have same : accepts true = Operator.isMultiplicative := funext fun op => beq_true _
      rw [same]
      rfl
  | false =>
      have same : accepts false = fun op => !op.isMultiplicative := funext fun op => beq_false _
      rw [same]
      rfl

/-- An operand of the category does not go on with these tokens. -/
def Ends (category : Category) (rest : List Token) : Prop :=
  NoDigitAhead rest ∧
    (category = expression → ∀ op, rest.head? = some (.operator op) → op.isMultiplicative = false)

end Category

def Tree.parsed (tree : Tree) : Parsed :=
  ⟨tree.expr, tree.height⟩

/-- The operations of the tree, latest first. -/
def Tree.reductions : Tree → List Reduction
  | .literal _ _ => []
  | .operation op left right position =>
    ⟨op, position⟩ :: (right.reductions ++ left.reductions)

def Phrase.after {category : Category} (phrase : Phrase category) (state : State)
    (rest : List Token) : State :=
  ⟨state.position + phrase.tokens.length, rest,
    (phrase.tree state.position).reductions ++ state.reductions⟩

theorem Phrase.after_group (inner : Phrase .expression) {state : State} {opened rest : List Token}
    (here : state.rest = .openParen :: opened) :
    (inner.after state.advance (.closeParen :: rest)).advance = inner.group.after state rest := by
  simp only [after, State.advance, here, tree, tokens, List.length_cons, List.length_append,
    List.length_nil, State.mk.injEq, and_true]
  omega

theorem Phrase.after_joined {tight : Bool} (left : Phrase (.chain tight)) (op : Operator)
    (accepted : op.isMultiplicative = tight) (right : Phrase (.operand tight)) (state : State)
    (between rest : List Token) :
    (right.after (left.after state (.operator op :: between)).advance rest).reduce op
        (state.position + left.tokens.length) =
      (left.joined op accepted right).after state rest := by
  simp only [after, State.advance, State.reduce, tree, Tree.reductions, length_joined,
    List.cons_append, List.append_assoc, State.mk.injEq, and_true]
  omega

/-- A rule answers with the first fault, or as given where there is none. -/
def Parser.Outcome.Meets (outcome : Outcome) (faults : List Fault) (given : Outcome) : Prop :=
  match faults with
  | [] => outcome = given
  | fault :: _ => outcome.result = .error fault.cause

namespace Parser.Outcome.Meets

variable {outcome middle given : Outcome} {first second : List Fault}

theorem append (meets : outcome.Meets first middle) (next : middle.Meets second given) :
    outcome.Meets (first ++ second) given := by
  cases first with
  | nil =>
      cases meets
      exact next
  | cons fault first => exact meets

theorem andThen (meets : outcome.Meets first given) (next : Parsed → State → Outcome) :
    (outcome.andThen next).Meets first (given.andThen next) := by
  cases first with
  | nil =>
      cases meets
      rfl
  | cons fault first =>
      obtain ⟨result, after⟩ := outcome
      cases meets
      rfl

end Parser.Outcome.Meets

open Category

variable {category : Category}

theorem Category.Ends.operand {tight : Bool} {rest : List Token}
    (ends : (chain tight).Ends rest) : (operand tight).Ends rest := by
  refine ⟨ends.1, ?_⟩
  intro same
  cases tight <;> cases same

/-- Where a repetition ends, so does its last operand. -/
theorem resume_operand {allowance : Nat} {tight : Bool} {parsed : Parsed} {state : State}
    (ends : (chain tight).Ends state.rest) :
    resume allowance (.operand tight) parsed state = ⟨.ok parsed, state⟩ := by
  cases tight with
  | true => rfl
  | false =>
      apply chainFrom_ends
      intro op ahead
      rw [accepts, ends.2 rfl op ahead]
      rfl

/-- Wherever the phrase stands, the rule of its category reads it to its end, or stops
with its first fault. -/
def Phrase.IsRead (phrase : Phrase category) : Prop :=
  ∀ (nesting allowance : Nat) (state : State) (rest : List Token),
    nesting + allowance = maxNesting → state.rest = phrase.tokens ++ rest → category.Ends rest →
      (rule allowance category state).Meets (phrase.faults nesting state.position)
        (resume allowance category (phrase.tree state.position).parsed (phrase.after state rest))

namespace Phrase

theorem isRead_literal (digits : List UInt8) (nonempty : digits ≠ []) :
    (literal digits nonempty).IsRead := by
  intro nesting allowance state rest limit here ends
  obtain ⟨digit, others, rfl⟩ := List.exists_cons_of_ne_nil nonempty
  have reads := literal_eq state (digit :: others) here ends.1
  rw [rule, factor_digit here, reads]
  unfold faults
  cases overrun? 0 state.position (digit :: others) with
  | none =>
      simp only [Outcome.Meets, resume, after, tokens, List.length_map]
      rfl
  | some point => rfl

theorem isRead_group {inner : Phrase .expression} (reads : inner.IsRead) :
    inner.group.IsRead := by
  intro nesting allowance state rest limit here ends
  have opening : state.rest = .openParen :: (inner.tokens ++ .closeParen :: rest) := by
    simp only [here, tokens, List.cons_append, List.append_assoc, List.nil_append]
  have advanced : state.advance.position = state.position + 1 := by
    simp only [State.advance, opening]
  unfold faults
  cases allowance with
  | zero =>
      -- The parenthesis itself is the first fault.
      rw [rule, factor_tooNested opening, if_pos (by omega)]
      rfl
  | succ allowance =>
      have inside := reads (nesting + 1) allowance state.advance (.closeParen :: rest) (by omega)
        (by simp only [State.advance, opening]) (by simp [Ends, NoDigitAhead])
      -- No repetition goes on with the closing parenthesis, so the expression is complete.
      have complete : resume allowance expression (inner.tree state.advance.position).parsed
          (inner.after state.advance (.closeParen :: rest)) =
            ⟨.ok (inner.tree state.advance.position).parsed,
              inner.after state.advance (.closeParen :: rest)⟩ :=
        chainFrom_ends (by simp [after])
      have closed := inside.andThen (close state.position)
      rw [complete, Outcome.andThen, close, after_group inner opening, advanced] at closed
      rw [rule, factor_open opening, group_eq, if_neg (by omega), List.nil_append]
      exact closed

theorem isRead_operand {tight : Bool} {only : Phrase (.operand tight)} (reads : only.IsRead) :
    (operand only).IsRead := by
  intro nesting allowance state rest limit here ends
  have inside := reads nesting allowance state rest limit here ends.operand
  rw [resume_operand ends] at inside
  rw [rule_chain, chain_eq]
  exact inside.andThen _

theorem isRead_joined {tight : Bool} {left : Phrase (.chain tight)} {op : Operator}
    (accepted : op.isMultiplicative = tight) {right : Phrase (.operand tight)}
    (readsLeft : left.IsRead) (readsRight : right.IsRead) :
    (left.joined op accepted right).IsRead := by
  intro nesting allowance state rest limit here ends
  let between := right.tokens ++ rest
  have agrees : accepts tight op = true := by rw [accepts, accepted, beq_self_eq_true]
  have apart : (chain tight).Ends (.operator op :: between) := by
    refine ⟨by simp [NoDigitAhead], ?_⟩
    intro same other ahead
    cases same
    cases ahead
    exact accepted
  have inLeft := readsLeft nesting allowance state (.operator op :: between) limit
    (by simp only [here, between, tokens, List.append_assoc, List.cons_append]) apart
  -- The rule for the left operand is that of the whole repetition, which goes on with `op`.
  rw [resume, chainFrom_accepted rfl agrees] at inLeft
  have inRight := readsRight nesting allowance (left.after state (.operator op :: between)).advance
    rest limit rfl ends.operand
  rw [resume_operand ends] at inRight
  -- The depth is looked at last, when both operands are known to have no fault.
  refine (inLeft.append (inRight.andThen (extend _ _ _ _ _))).append ?_
  simp only [Outcome.andThen, extend]
  by_cases shallow : ((left.joined op accepted right).tree state.position).height ≤ maxTreeDepth
  · rw [if_pos shallow, if_pos (by exact shallow)]
    simp only [Outcome.Meets, resume]
    rw [← after_joined left op accepted right state between rest]
    rfl
  · rw [if_neg shallow, if_neg (by exact shallow)]
    rfl

theorem isRead (phrase : Phrase category) : phrase.IsRead := by
  induction phrase with
  | literal digits nonempty => exact isRead_literal digits nonempty
  | group inner ih => exact isRead_group ih
  | operand only ih => exact isRead_operand ih
  | joined left op accepted right ihl ihr => exact isRead_joined accepted ihl ihr

end Phrase

theorem parseTree_tokens (phrase : Phrase .expression) :
    parseTree phrase.tokens =
      match phrase.faults 0 0 with
      | [] => .ok (phrase.tree 0).expr
      | fault :: _ => .error fault.cause := by
  have complete : resume maxNesting expression (phrase.tree 0).parsed
      (phrase.after (.start 0 phrase.tokens) []) =
        ⟨.ok (phrase.tree 0).parsed, phrase.after (.start 0 phrase.tokens) []⟩ :=
    chainFrom_ends (by simp [Phrase.after])
  have reads : (expressionOf (Parser.factor maxNesting) (.start 0 phrase.tokens)).Meets
      (phrase.faults 0 0)
      ⟨.ok (phrase.tree 0).parsed, phrase.after (.start 0 phrase.tokens) []⟩ := by
    rw [← complete]
    exact phrase.isRead 0 maxNesting _ [] (Nat.zero_add _) (List.append_nil _).symm
      (by simp [Ends, NoDigitAhead])
  unfold parseTree leadingExpression Parser.expression
  rw [Nat.sub_zero]
  generalize expressionOf (Parser.factor maxNesting) (.start 0 phrase.tokens) = outcome at reads ⊢
  cases found : phrase.faults 0 0 with
  | nil =>
      rw [found] at reads
      cases reads
      rfl
  | cons fault others =>
      rw [found] at reads
      obtain ⟨result, after⟩ := outcome
      cases reads
      rfl

end Arith
