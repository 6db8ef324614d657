import Arith.Lexing
import Arith.Parser.Rules

/-! Whole token sequences: an expression and nothing after it, then its value. -/

set_option autoImplicit false

namespace Arith

def leadingExpression (tokens : List Token) : Parser.Outcome :=
  Parser.expression 0 (.start 0 tokens)

def parseTree (tokens : List Token) : Except ParseError Expr :=
  match leadingExpression tokens with
  | ⟨.error cause, _⟩ => .error cause
  | ⟨.ok parsed, after⟩ =>
    match after.next? with
    | some (position, token) => .error (.unexpectedTrailingTokens token.text position)
    | none => .ok parsed.expr

/-- Nothing is evaluated before the sequence as a whole is known to be an expression. -/
def parse (tokens : List Token) : Except ParseError Int64 :=
  match parseTree tokens with
  | .error cause => .error cause
  | .ok expr => expr.evaluate.mapError .evaluation

def calculate (text : String) : Except ParseError Int64 :=
  parse (lex text)

end Arith
