import Arith.Evaluation

/-! Why a token sequence has no value. -/

set_option autoImplicit false

namespace Arith

/-- A `position` is that of the token in question: the unexpected token, the
parenthesis that is not closed, the first digit of a literal, the parenthesis that
opens too far in, or the operator of the operation that is too deep. -/
inductive ParseError where
  | unexpectedToken (token : String) (position : Nat)
  | unexpectedEndOfInput
  | expectedClosingParen (position : Nat)
  | unexpectedTrailingTokens (token : String) (position : Nat)
  | literalTooLarge (position : Nat)
  | nestingTooDeep (position : Nat)
  | expressionTooDeep (position : Nat)
  | evaluation (cause : EvalError)
  deriving DecidableEq, Repr

def ParseError.message : ParseError → String
  | .unexpectedToken token position =>
    s!"Error at token {position}: Expected a number or '(' but found '{token}'."
  | .unexpectedEndOfInput => "Error: Unexpected end of input, expected a number or '('."
  | .expectedClosingParen position =>
    s!"Error at token {position}: Expected closing parenthesis ')' but none found."
  | .unexpectedTrailingTokens token position =>
    s!"Error at token {position}: Extra tokens after expression, starting with '{token}'."
  | .literalTooLarge position => s!"Error at token {position}: Literal is too large."
  | .nestingTooDeep position => s!"Error at token {position}: Parentheses are nested too deeply."
  | .expressionTooDeep position => s!"Error at token {position}: Expression is nested too deeply."
  | .evaluation cause => cause.message

end Arith
