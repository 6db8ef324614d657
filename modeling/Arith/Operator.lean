/-! The four operators, their symbols, and which of them bind tightly. -/

set_option autoImplicit false

namespace Arith

inductive Operator where
  | add
  | sub
  | mul
  | div
  deriving DecidableEq, Repr

namespace Operator

def symbol : Operator → Char
  | .add => '+'
  | .sub => '-'
  | .mul => '*'
  | .div => '/'

def ofChar? : Char → Option Operator
  | '+' => some .add
  | '-' => some .sub
  | '*' => some .mul
  | '/' => some .div
  | _ => none

def isMultiplicative : Operator → Bool
  | .mul | .div => true
  | .add | .sub => false

theorem ofChar?_symbol (op : Operator) : ofChar? op.symbol = some op := by
  cases op <;> rfl

theorem symbol_inj {first second : Operator} (same : first.symbol = second.symbol) :
    first = second := by
  have read := first.ofChar?_symbol
  rw [same, ofChar?_symbol] at read
  exact (Option.some.inj read).symm

theorem symbol_of_ofChar? {c : Char} {op : Operator} (found : ofChar? c = some op) :
    op.symbol = c := by
  unfold ofChar? at found
  split at found <;> cases found <;> rfl

end Operator

end Arith
