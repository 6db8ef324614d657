import Arith.Evaluation

/-! Checked arithmetic against the unbounded integers.

`Operator.unbounded?` is the operation on integers. An operation of a tree gives its
result where that is a word, and otherwise says which of the two it lacks: a
nonzero divisor, or a result that is a word.
-/

set_option autoImplicit false

namespace Arith

/-- The integers that are signed 64-bit words. -/
def Fits (value : Int) : Prop :=
  Int64.minValue.toInt ≤ value ∧ value ≤ Int64.maxValue.toInt

instance (value : Int) : Decidable (Fits value) :=
  inferInstanceAs (Decidable (_ ∧ _))

theorem fits_iff (value : Int) :
    Fits value ↔ -0x8000000000000000 ≤ value ∧ value < 0x8000000000000000 := by
  have least : Int64.minValue.toInt = -0x8000000000000000 := by decide
  have greatest : Int64.maxValue.toInt = 0x7fffffffffffffff := by decide
  simp only [Fits, least, greatest]
  omega

theorem fits_toInt (word : Int64) : Fits word.toInt :=
  (fits_iff _).mpr ⟨word.le_toInt, word.toInt_lt⟩

theorem toInt_ofInt {value : Int} (fits : Fits value) : (Int64.ofInt value).toInt = value := by
  obtain ⟨least, greatest⟩ := (fits_iff value).mp fits
  exact Int64.toInt_ofInt_of_le least greatest

def largestLiteral : Nat :=
  Int64.maxValue.toInt.toNat

theorem fits_natCast_iff (value : Nat) : Fits value ↔ value ≤ largestLiteral := by
  have greatest : largestLiteral = 0x7fffffffffffffff := by decide
  rw [fits_iff, greatest]
  omega

/-- The only quotient of words that is no word is the negation of the least one. -/
theorem fits_tdiv (left right : Int64) :
    Fits (left.toInt.tdiv right.toInt) ↔ ¬ (left = Int64.minValue ∧ right = -1) := by
  constructor
  · rintro fits ⟨rfl, rfl⟩
    exact absurd fits (by decide)
  · intro other
    by_cases least : left = Int64.minValue
    · rw [← Int64.toInt_div_of_ne_right left right fun unit => other ⟨least, unit⟩]
      exact fits_toInt _
    · rw [← Int64.toInt_div_of_ne_left left right least]
      exact fits_toInt _

namespace Operator

def unbounded? : Operator → Int → Int → Option Int
  | .add, left, right => some (left + right)
  | .sub, left, right => some (left - right)
  | .mul, left, right => some (left * right)
  | .div, left, right => if right = 0 then none else some (left.tdiv right)

theorem unbounded?_eq_none_iff {op : Operator} {left right : Int} :
    op.unbounded? left right = none ↔ op = .div ∧ right = 0 := by
  cases op <;> simp [unbounded?]

theorem overflows_eq_true_iff {op : Operator} {left right : Int64} {value : Int}
    (result : op.unbounded? left.toInt right.toInt = some value) :
    op.overflows left right = true ↔ ¬ Fits value := by
  cases op with
  | add | sub | mul =>
      cases result
      simp only [fits_iff, overflows, BitVec.saddOverflow, BitVec.ssubOverflow,
        BitVec.smulOverflow, Int64.toInt_toBitVec, Bool.or_eq_true, decide_eq_true_eq]
      omega
  | div =>
      simp only [unbounded?] at result
      split at result
      · cases result
      · cases result
        simp only [fits_tdiv, overflows, Bool.and_eq_true, beq_iff_eq, Decidable.not_not]

theorem wrapping_eq {op : Operator} {left right : Int64} {value : Int}
    (result : op.unbounded? left.toInt right.toInt = some value) :
    op.wrapping left right = Int64.ofInt value := by
  apply Int64.toInt_inj.mp
  cases op with
  | add | sub | mul =>
      cases result
      simp [wrapping]
  | div =>
      simp only [unbounded?] at result
      split at result
      · cases result
      · cases result
        simp [wrapping]

theorem checked_eq {op : Operator} {left right : Int64} {value : Int}
    (result : op.unbounded? left.toInt right.toInt = some value) :
    op.checked left right = if Fits value then some (Int64.ofInt value) else none := by
  have overflow := overflows_eq_true_iff result
  rw [checked, wrapping_eq result]
  by_cases fits : Fits value
  · rw [if_pos fits, if_neg fun overflows => overflow.mp overflows fits]
  · rw [if_neg fits, if_pos (overflow.mpr fits)]

theorem apply_eq (op : Operator) (left right : Int64) (position : Nat) :
    op.apply left right position =
      match op.unbounded? left.toInt right.toInt with
      | none => .error (.divisionByZero position)
      | some value =>
        if Fits value then .ok (Int64.ofInt value) else .error (.overflow op position) := by
  have zero : right = 0 ↔ right.toInt = 0 := Int64.toInt_inj.symm
  cases result : op.unbounded? left.toInt right.toInt with
  | none =>
      rw [apply, if_pos (by rw [zero]; exact unbounded?_eq_none_iff.mp result)]
  | some value =>
      have regular : ¬ (op = .div ∧ right = 0) := by
        rw [zero]
        intro undefined
        rw [unbounded?_eq_none_iff.mpr undefined] at result
        cases result
      rw [apply, if_neg regular, checked_eq result]
      by_cases fits : Fits value
      · simp only [if_pos fits]
      · simp only [if_neg fits]

end Operator

end Arith
