import Arith.Parse
import Arith.Text.Quoted

/-! What the calculation of a text reports about itself.

First come the skipped characters and the size of the text, then one record for each
operation that becomes a node, then a closing record where the end of the tokens, or a
token that does not belong, was reached. The texts are what a log shows of the records; the
command prints none of them.
-/

set_option autoImplicit false

namespace Arith

inductive Level where
  | trace
  | debug
  deriving DecidableEq, Repr

def Level.name : Level → String
  | .trace => "TRACE"
  | .debug => "DEBUG"

inductive Record where
  | skipped (skip : Skip)
  | lexed (tokens bytes : Nat)
  | reduced (reduction : Parser.Reduction)
  | rejectedTrailing (position : Nat)
  | parsed (tokens depth : Nat)
  deriving DecidableEq, Repr

namespace Record

def level : Record → Level
  | .skipped _ | .reduced _ => .trace
  | .lexed _ _ | .rejectedTrailing _ | .parsed _ _ => .debug

def message : Record → String
  | .skipped skip =>
    s!"skipping unrecognized input {Text.quoted skip.char} at byte {skip.offset}"
  | .lexed tokens bytes => s!"lexed {tokens} tokens from {bytes} bytes"
  | .reduced reduction =>
    s!"reduced '{reduction.op.symbol}' at token {reduction.position}"
  | .rejectedTrailing position => s!"rejecting trailing input at token {position}"
  | .parsed tokens depth => s!"parsed {tokens} tokens into a tree of depth {depth}"

end Record

def lexingRecords (text : String) : List Record :=
  (skips text).map .skipped ++ [.lexed (lex text).length text.utf8ByteSize]

def parsingRecords (tokens : List Token) : List Record :=
  match leadingExpression tokens with
  | ⟨.error _, after⟩ => after.reductions.reverse.map .reduced
  | ⟨.ok parsed, after⟩ =>
    match after.next? with
    | some (position, _) => after.reductions.reverse.map .reduced ++ [.rejectedTrailing position]
    | none => after.reductions.reverse.map .reduced ++ [.parsed tokens.length parsed.depth]

/-- Evaluation reports nothing. -/
def records (text : String) : List Record :=
  lexingRecords text ++ parsingRecords (lex text)

end Arith
