import Arith.ParseError
import Arith.Token

/-! What a parsing rule works on and what it answers.

A rule reads tokens from the front of a state and answers with a tree or an error,
together with the state it leaves. An error gives nothing back: tokens that a rule
consumed before it failed stay consumed.
-/

set_option autoImplicit false

namespace Arith

/-- The most parentheses that may be open at once. -/
def maxNesting : Nat := 256

def maxTreeDepth : Nat := 1024

namespace Parser

structure Reduction where
  op : Operator
  position : Nat
  deriving DecidableEq, Repr

/-- The tokens not yet consumed, the position of the first of them, and the
reductions made so far, latest first. -/
structure State where
  position : Nat
  rest : List Token
  reductions : List Reduction
  deriving DecidableEq, Repr

namespace State

def start (position : Nat) (tokens : List Token) : State :=
  ⟨position, tokens, []⟩

def next? (state : State) : Option (Nat × Token) :=
  state.rest.head?.map fun token => (state.position, token)

def advance (state : State) : State :=
  match state.rest with
  | [] => state
  | _ :: rest => { state with position := state.position + 1, rest }

def reduce (state : State) (op : Operator) (position : Nat) : State :=
  { state with reductions := ⟨op, position⟩ :: state.reductions }

end State

/-- A tree with its depth at hand, so that joining two trees measures neither. -/
structure Parsed where
  expr : Expr
  depth : Nat
  deriving DecidableEq, Repr

namespace Parsed

def literal (value : Int64) (position : Nat) : Parsed :=
  ⟨.literal value position, 1⟩

def join (op : Operator) (left right : Parsed) (position : Nat) : Parsed :=
  ⟨.operation op left.expr right.expr position, 1 + max left.depth right.depth⟩

theorem depth_lt_join (op : Operator) (left right : Parsed) (position : Nat) :
    left.depth < (join op left right position).depth := by
  simp only [join]
  omega

end Parsed

structure Outcome where
  result : Except ParseError Parsed
  after : State

abbrev Rule := State → Outcome

end Parser

end Arith
