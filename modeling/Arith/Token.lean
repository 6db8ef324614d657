import Arith.Operator

/-! Tokens, the characters they are read from, and the texts they print as. -/

set_option autoImplicit false

namespace Arith

/-- A digit token read from a character is below ten. One that is built directly may
hold any byte; it prints as that number and counts with that value. -/
inductive Token where
  | openParen
  | closeParen
  | digit (value : UInt8)
  | operator (op : Operator)
  deriving DecidableEq, Repr

namespace Token

def ofChar? : Char → Option Token
  | '(' => some .openParen
  | ')' => some .closeParen
  | c =>
    if c.isDigit then some (.digit (c.toNat - '0'.toNat).toUInt8)
    else (Operator.ofChar? c).map .operator

def text : Token → String
  | .openParen => "("
  | .closeParen => ")"
  | .digit value => toString value.toNat
  | .operator op => op.symbol.toString

def kindName : Token → String
  | .openParen => "OpenParen"
  | .closeParen => "CloseParen"
  | .digit _ => "IntDigit"
  | .operator .add => "Plus"
  | .operator .sub => "Minus"
  | .operator .mul => "Mul"
  | .operator .div => "Div"

def digit? : Token → Option UInt8
  | .digit value => some value
  | _ => none

def operator? : Token → Option Operator
  | .operator op => some op
  | _ => none

def startsFactor : Token → Bool
  | .openParen | .digit _ => true
  | .closeParen | .operator _ => false

end Token

end Arith
