import Arith.Proofs.Nesting

/-! The grammar is unambiguous.

A repetition ends with its last accepted operator outside all parentheses: an operand
has no such operator. So the tokens of a phrase determine how it was derived.
-/

set_option autoImplicit false

namespace Arith.Phrase

variable {category : Category} {opened : List Nat} {base index : Nat} {op : Operator}

/-- A factor has no operator outside its parentheses, a term only those that bind tightly. -/
theorem exposed (phrase : Phrase category)
    (stands : StandsAt opened base phrase.tokens (.operator op) opened.length index) :
    category ≠ .factor ∧ (category = .term → op.isMultiplicative = true) := by
  induction phrase generalizing base index with
  | literal digits nonempty =>
      have here := (standsAt_digits.mp stands).1
      simp at here
  | group inner ih =>
      rcases (standsAt_group inner.unclosedFrom_tokens).mp stands with
        ⟨-, other, -⟩ | ⟨offset, -, inside⟩ | ⟨-, other, -⟩
      · cases other
      · have deeper := inner.le_depth inside
        rw [List.length_cons] at deeper
        omega
      · cases other
  | operand only ih =>
      rename_i tight
      refine ⟨by simp, ?_⟩
      intro same
      cases same
      exact absurd rfl (ih stands).1
  | joined left other accepted right ihl ihr =>
      rename_i tight
      refine ⟨by simp, ?_⟩
      intro same
      cases same
      rcases (standsAt_joined left.unclosedFrom_tokens).mp stands with
        inLeft | ⟨-, own, -⟩ | ⟨offset, -, inRight⟩
      · exact (ihl inLeft).2 rfl
      · cases own
        exact accepted
      · exact absurd rfl (ihr inRight).1

/-- No operand of a repetition has an operator of the repetition outside its parentheses. -/
theorem operand_exposed {tight : Bool} (phrase : Phrase (.operand tight))
    (stands : StandsAt opened base phrase.tokens (.operator op) opened.length index) :
    op.isMultiplicative ≠ tight := by
  have exposed := phrase.exposed stands
  cases tight with
  | true => exact absurd rfl exposed.1
  | false =>
      rw [exposed.2 rfl]
      exact Bool.noConfusion

theorem standsAt_op {tight : Bool} (left : Phrase (.chain tight)) (op : Operator)
    (accepted : op.isMultiplicative = tight) (right : Phrase (.operand tight)) :
    StandsAt opened base (left.joined op accepted right).tokens (.operator op) opened.length
      left.tokens.length :=
  (standsAt_joined left.unclosedFrom_tokens).mpr (.inr (.inl ⟨rfl, rfl, rfl⟩))

/-- The operator of a joined phrase is the last of its repetition. -/
theorem le_of_exposed {tight : Bool} (left : Phrase (.chain tight)) {own : Operator}
    (accepted : own.isMultiplicative = tight) (right : Phrase (.operand tight))
    (agrees : op.isMultiplicative = tight)
    (stands : StandsAt opened base (left.joined own accepted right).tokens (.operator op)
      opened.length index) : index ≤ left.tokens.length := by
  rcases (standsAt_joined left.unclosedFrom_tokens).mp stands with
    inLeft | ⟨same, -, -⟩ | ⟨offset, -, inRight⟩
  · exact Nat.le_of_lt inLeft.lt_length
  · exact Nat.le_of_eq same
  · exact absurd agrees (right.operand_exposed inRight)

theorem eq_of_tokens (first second : Phrase category) (same : first.tokens = second.tokens) :
    first = second := by
  induction first with
  | literal digits nonempty =>
      cases second with
      | literal others othersNonempty =>
          have equal : digits = others :=
            (List.map_inj_right fun _ _ => Token.digit.inj).mp same
          subst equal
          rfl
      | group inner =>
          obtain ⟨digit, others, rfl⟩ := List.exists_cons_of_ne_nil nonempty
          cases same
  | group inner ih =>
      cases second with
      | literal others othersNonempty =>
          obtain ⟨digit, others, rfl⟩ := List.exists_cons_of_ne_nil othersNonempty
          cases same
      | group other =>
          have inside : inner.tokens = other.tokens :=
            List.append_cancel_right (List.cons.inj same).2
          rw [ih other inside]
  | operand only ih =>
      cases second with
      | operand other => rw [ih other same]
      | joined left op accepted right =>
          have stands : StandsAt [] 0 (left.joined op accepted right).tokens (.operator op) 0 _ :=
            left.standsAt_op op accepted right
          rw [← same] at stands
          -- The operator would stand outside the parentheses of an operand.
          exact absurd accepted (only.operand_exposed stands)
  | joined left op accepted right ihl ihr =>
      have stands : StandsAt [] 0 (left.joined op accepted right).tokens (.operator op) 0 _ :=
        left.standsAt_op op accepted right
      cases second with
      | operand other =>
          rw [same] at stands
          exact absurd accepted (other.operand_exposed stands)
      | joined otherLeft otherOp otherAccepted otherRight =>
          have otherStands : StandsAt [] 0
              (otherLeft.joined otherOp otherAccepted otherRight).tokens (.operator otherOp) 0 _ :=
            otherLeft.standsAt_op otherOp otherAccepted otherRight
          -- Each operator is the last of the repetition, so neither stands before the other.
          have notAfter := otherLeft.le_of_exposed otherAccepted otherRight accepted (same ▸ stands)
          have notBefore := left.le_of_exposed accepted right otherAccepted (same ▸ otherStands)
          have inLeft := List.append_inj same (Nat.le_antisymm notAfter notBefore)
          obtain ⟨sameOp, inRight⟩ := List.cons.inj inLeft.2
          cases sameOp
          rw [ihl otherLeft inLeft.1, ihr otherRight inRight]

end Arith.Phrase
