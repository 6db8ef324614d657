import Arith.Proofs.Parser.Answers

/-! Evaluating while parsing.

The rules once more, with the value of what was read in place of its tree. An operation
without a value does not stop them: what went wrong is carried on as the outcome of the
expression, and is reported only when the sequence is known to be one. The result is
that of parsing first and evaluating then.
-/

set_option autoImplicit false

namespace Arith.OnePass

open Arith.Parser (State)

/-- What is kept of an expression. The outcome is its value, or why it has none. -/
structure Valued where
  outcome : Except EvalError Int64
  depth : Nat

namespace Valued

def literal (value : Int64) : Valued :=
  ⟨.ok value, 1⟩

/-- The left operand's error comes first, then the right one's, then that of the operation. -/
def join (op : Operator) (left right : Valued) (position : Nat) : Valued where
  outcome :=
    match left.outcome with
    | .error cause => .error cause
    | .ok leftValue =>
      match right.outcome with
      | .error cause => .error cause
      | .ok rightValue => op.apply leftValue rightValue position
  depth := 1 + max left.depth right.depth

theorem depth_lt_join (op : Operator) (left right : Valued) (position : Nat) :
    left.depth < (join op left right position).depth := by
  simp only [join]
  omega

end Valued

structure Answer where
  result : Except ParseError Valued
  after : State

abbrev Rule := State → Answer

def literal : Rule := fun state =>
  match Parser.foldDigits 0 state.position state.rest with
  | (some value, position, rest) => ⟨.ok (.literal value), { state with position, rest }⟩
  | (none, position, rest) =>
    ⟨.error (.literalTooLarge state.position), { state with position, rest }⟩

def chainFrom (accepts : Operator → Bool) (operand : Rule) (left : Valued) (state : State) :
    Answer :=
  match state.rest with
  | .operator op :: _ =>
    if accepts op then
      match operand state.advance with
      | ⟨.error cause, after⟩ => ⟨.error cause, after⟩
      | ⟨.ok right, after⟩ =>
        if _ : (left.join op right state.position).depth ≤ maxTreeDepth then
          chainFrom accepts operand (left.join op right state.position)
            (after.reduce op state.position)
        else ⟨.error (.expressionTooDeep state.position), after⟩
    else ⟨.ok left, state⟩
  | _ => ⟨.ok left, state⟩
termination_by maxTreeDepth - left.depth
decreasing_by
  have deeper := Valued.depth_lt_join op left right state.position
  omega

def chain (accepts : Operator → Bool) (operand : Rule) : Rule := fun state =>
  match operand state with
  | ⟨.error cause, after⟩ => ⟨.error cause, after⟩
  | ⟨.ok left, after⟩ => chainFrom accepts operand left after

def expressionOf (factor : Rule) : Rule :=
  chain (fun op => !op.isMultiplicative) (chain Operator.isMultiplicative factor)

def group (inner : Rule) : Rule := fun state =>
  match inner state.advance with
  | ⟨.error cause, after⟩ => ⟨.error cause, after⟩
  | ⟨.ok valued, after⟩ =>
    match after.rest with
    | .closeParen :: _ => ⟨.ok valued, after.advance⟩
    | _ => ⟨.error (.expectedClosingParen state.position), after.advance⟩

def tooNested : Rule := fun state =>
  ⟨.error (.nestingTooDeep state.position), state⟩

def factorOf (group : Rule) : Rule := fun state =>
  match state.rest with
  | [] => ⟨.error .unexpectedEndOfInput, state⟩
  | .digit _ :: _ => literal state
  | .openParen :: _ => group state
  | token :: _ => ⟨.error (.unexpectedToken token.text state.position), state⟩

def factor : (allowance : Nat) → Rule
  | 0, state => factorOf tooNested state
  | allowance + 1, state => factorOf (group (expressionOf (factor allowance))) state

def expression (nesting : Nat) : Rule :=
  expressionOf (factor (maxNesting - nesting))

/-- The value of a sequence. A failed operation is reported behind the end of it. -/
def value (tokens : List Token) : Except ParseError Int64 :=
  match expression 0 (.start 0 tokens) with
  | ⟨.error cause, _⟩ => .error cause
  | ⟨.ok valued, after⟩ =>
    match after.next? with
    | some (position, token) => .error (.unexpectedTrailingTokens token.text position)
    | none => valued.outcome.mapError .evaluation

def ofParsed (parsed : Parser.Parsed) : Valued :=
  ⟨parsed.expr.evaluate, parsed.depth⟩

def ofOutcome (outcome : Parser.Outcome) : Answer :=
  ⟨outcome.result.map ofParsed, outcome.after⟩

theorem ofParsed_join (op : Operator) (left right : Parser.Parsed) (position : Nat) :
    ofParsed (left.join op right position) = (ofParsed left).join op (ofParsed right) position :=
  rfl

/-- The rule gives the value where the other gives the tree, and both stop at the same token. -/
def Follows (rule : Rule) (other : Parser.Rule) : Prop :=
  ∀ state, rule state = ofOutcome (other state)

theorem literal_follows : Follows literal Parser.literal := by
  intro state
  unfold literal Parser.literal
  obtain ⟨folded, position, rest⟩ := Parser.foldDigits 0 state.position state.rest
  cases folded with
  | none => rfl
  | some value => rfl

section
variable {accepts : Operator → Bool} {rule : Rule} {other : Parser.Rule}

theorem chainFrom_follows (follows : Follows rule other) (left : Parser.Parsed) (state : State) :
    chainFrom accepts rule (ofParsed left) state =
      ofOutcome (Parser.chainFrom accepts other left state) := by
  fun_induction Parser.chainFrom accepts other left state with
  | case1 left state op behind here accepted cause after answered =>
      unfold chainFrom
      simp only [here, if_pos accepted, follows state.advance, answered]
      rfl
  | case2 left state op behind here accepted right after answered shallow ih =>
      unfold chainFrom
      simp only [here, if_pos accepted, follows state.advance, answered]
      rw [← ih, ofParsed_join]
      exact dif_pos shallow
  | case3 left state op behind here accepted right after answered deep =>
      unfold chainFrom
      simp only [here, if_pos accepted, follows state.advance, answered]
      exact dif_neg deep
  | case4 left state op behind here refused =>
      unfold chainFrom
      simp only [here, if_neg refused]
      rfl
  | case5 left state elsewhere =>
      unfold chainFrom
      split
      · rename_i op behind here
        exact absurd here (elsewhere op behind)
      · rfl

theorem chain_follows (follows : Follows rule other) :
    Follows (chain accepts rule) (Parser.chain accepts other) := by
  intro state
  unfold chain Parser.chain
  rw [follows state]
  obtain ⟨result, after⟩ := other state
  cases result with
  | error cause => rfl
  | ok left => exact chainFrom_follows follows left after

theorem expressionOf_follows (follows : Follows rule other) :
    Follows (expressionOf rule) (Parser.expressionOf other) :=
  chain_follows (chain_follows follows)

theorem group_follows (follows : Follows rule other) :
    Follows (group rule) (Parser.group other) := by
  intro state
  unfold group Parser.group
  rw [follows state.advance]
  obtain ⟨result, after⟩ := other state.advance
  cases result with
  | error cause => rfl
  | ok parsed =>
      simp only [ofOutcome, Except.map]
      cases after.rest with
      | nil => rfl
      | cons token behind => cases token <;> rfl

theorem factorOf_follows (follows : Follows rule other) :
    Follows (factorOf rule) (Parser.factorOf other) := by
  intro state
  unfold factorOf Parser.factorOf
  cases state.rest with
  | nil => rfl
  | cons token behind =>
      cases token with
      | digit digit => exact literal_follows state
      | openParen => exact follows state
      | closeParen | operator => rfl

end

theorem factor_follows (allowance : Nat) :
    Follows (factor allowance) (Parser.factor allowance) := by
  induction allowance with
  | zero =>
      have refused : Follows tooNested Parser.tooNested := fun _ => rfl
      exact factorOf_follows refused
  | succ allowance ih => exact factorOf_follows (group_follows (expressionOf_follows ih))

theorem expression_follows (nesting : Nat) :
    Follows (expression nesting) (Parser.expression nesting) :=
  expressionOf_follows (factor_follows (maxNesting - nesting))

/-- The one pass gives what parsing and then evaluating give. An error of the sequence is
given whatever operations before it have no value. -/
theorem value_exact (tokens : List Token) :
    value tokens = parse tokens ∧
      ∀ cause, parseTree tokens = .error cause → value tokens = .error cause := by
  have agrees : value tokens = parse tokens := by
    unfold value parse parseTree leadingExpression
    rw [expression_follows 0]
    obtain ⟨result, after⟩ := Parser.expression 0 (.start 0 tokens)
    cases result with
    | error cause => rfl
    | ok parsed =>
        simp only [ofOutcome, Except.map]
        cases after.next? with
        | none => rfl
        | some next => rfl
  refine ⟨agrees, ?_⟩
  intro cause rejected
  rw [agrees, parse, rejected]

end Arith.OnePass
