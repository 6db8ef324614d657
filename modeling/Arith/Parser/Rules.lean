import Arith.Parser.State

/-! The grammar's rules.

    expression := term (('+' | '-') term)*
    term       := factor (('*' | '/') factor)*
    factor     := digit+ | '(' expression ')'

Repetitions join their operands from the left. `chain` is both repetitions, `factor`
closes the recursion through groups: its argument is the number of parentheses that
may still be opened, so that recursion is bounded whatever the tokens are.
-/

set_option autoImplicit false

namespace Arith.Parser

def appendDigit? (value : Int64) (digit : UInt8) : Option Int64 :=
  (Operator.mul.checked value 10).bind fun tenfold =>
    Operator.add.checked tenfold (Int64.ofNat digit.toNat)

/-- Folds a run of digits onto a value, and gives the position and the tokens that
follow. The digit at which the value grows too large is the last one read. -/
def foldDigits (value : Int64) (position : Nat) :
    List Token → Option Int64 × Nat × List Token
  | .digit digit :: rest =>
    match appendDigit? value digit with
    | some value => foldDigits value (position + 1) rest
    | none => (none, position + 1, rest)
  | tokens => (some value, position, tokens)

def literal : Rule := fun state =>
  match foldDigits 0 state.position state.rest with
  | (some value, position, rest) =>
    ⟨.ok (.literal value state.position), { state with position, rest }⟩
  | (none, position, rest) =>
    ⟨.error (.literalTooLarge state.position), { state with position, rest }⟩

/-- Joins further operands to `left` for as long as an accepted operator comes next.
The depth of the joined tree is looked at once its right operand is complete. Each
round makes the tree deeper, and the limit on its depth ends the loop. -/
def chainFrom (accepts : Operator → Bool) (operand : Rule) (left : Parsed) (state : State) :
    Outcome :=
  match state.rest with
  | .operator op :: _ =>
    if accepts op then
      match operand state.advance with
      | ⟨.error cause, after⟩ => ⟨.error cause, after⟩
      | ⟨.ok right, after⟩ =>
        if _ : (left.join op right state.position).depth ≤ maxTreeDepth then
          chainFrom accepts operand (left.join op right state.position)
            (after.reduce op state.position)
        else ⟨.error (.expressionTooDeep state.position), after⟩
    else ⟨.ok left, state⟩
  | _ => ⟨.ok left, state⟩
termination_by maxTreeDepth - left.depth
decreasing_by
  have deeper := Parsed.depth_lt_join op left right state.position
  omega

def chain (accepts : Operator → Bool) (operand : Rule) : Rule := fun state =>
  match operand state with
  | ⟨.error cause, after⟩ => ⟨.error cause, after⟩
  | ⟨.ok left, after⟩ => chainFrom accepts operand left after

def termOf (factor : Rule) : Rule :=
  chain Operator.isMultiplicative factor

def expressionOf (factor : Rule) : Rule :=
  chain (fun op => !op.isMultiplicative) (termOf factor)

/-- A parenthesis, what `inner` reads, and the parenthesis that closes it. The token
found in place of the closing one is consumed as well. -/
def group (inner : Rule) : Rule := fun state =>
  match inner state.advance with
  | ⟨.error cause, after⟩ => ⟨.error cause, after⟩
  | ⟨.ok parsed, after⟩ =>
    match after.rest with
    | .closeParen :: _ => ⟨.ok parsed, after.advance⟩
    | _ => ⟨.error (.expectedClosingParen state.position), after.advance⟩

def tooNested : Rule := fun state =>
  ⟨.error (.nestingTooDeep state.position), state⟩

def factorOf (group : Rule) : Rule := fun state =>
  match state.rest with
  | [] => ⟨.error .unexpectedEndOfInput, state⟩
  | .digit _ :: _ => literal state
  | .openParen :: _ => group state
  | token :: _ => ⟨.error (.unexpectedToken token.text state.position), state⟩

def factor : (allowance : Nat) → Rule
  | 0, state => factorOf tooNested state
  | allowance + 1, state => factorOf (group (expressionOf (factor allowance))) state

/-- A term where `nesting` parentheses are open already. -/
def term (nesting : Nat) : Rule :=
  termOf (factor (maxNesting - nesting))

def expression (nesting : Nat) : Rule :=
  expressionOf (factor (maxNesting - nesting))

end Arith.Parser
