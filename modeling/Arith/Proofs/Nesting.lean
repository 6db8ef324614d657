import Arith.Proofs.Grammar

/-! How many parentheses are open where a token stands, and how that reads off the parts
of a phrase.
-/

set_option autoImplicit false

namespace Arith

/-- The token stands at the index with so many parentheses open, those of `opened` before
the sequence included. -/
def StandsAt (opened : List Nat) (base : Nat) (tokens : List Token) (token : Token)
    (depth index : Nat) : Prop :=
  tokens[index]? = some token ∧ (unclosedFrom opened base (tokens.take index)).length = depth

section
variable {opened : List Nat} {base depth index : Nat} {token : Token}

theorem StandsAt.lt_length {tokens : List Token}
    (stands : StandsAt opened base tokens token depth index) : index < tokens.length :=
  (List.getElem?_eq_some_iff.mp stands.1).1

theorem standsAt_digits {digits : List UInt8} :
    StandsAt opened base (digits.map .digit) token depth index ↔
      (digits.map Token.digit)[index]? = some token ∧ opened.length = depth := by
  rw [StandsAt, ← List.map_take, unclosedFrom_digits]

theorem standsAt_joined {first second : List Token} {op : Operator}
    (balanced : ∀ opened base, unclosedFrom opened base first = opened) :
    StandsAt opened base (first ++ .operator op :: second) token depth index ↔
      StandsAt opened base first token depth index ∨
        (index = first.length ∧ token = .operator op ∧ opened.length = depth) ∨
        ∃ offset, index = first.length + 1 + offset ∧
          StandsAt opened (base + first.length + 1) second token depth offset := by
  rcases Nat.lt_trichotomy index first.length with less | rfl | greater
  · simp only [StandsAt, look_left less, List.take_append_of_le_length (Nat.le_of_lt less)]
    constructor
    · exact Or.inl
    · intro inPart
      rcases inPart with here | ⟨rfl, -⟩ | ⟨offset, rfl, -⟩
      · exact here
      · omega
      · omega
  · have outside : ¬ StandsAt opened base first token depth first.length :=
      fun stands => Nat.lt_irrefl _ stands.lt_length
    have behind : ∀ offset, first.length ≠ first.length + 1 + offset := by omega
    simp only [outside, behind, false_and, exists_false, or_false, false_or, true_and]
    simp only [StandsAt, look_middle, List.take_left, balanced, Option.some.injEq]
    rw [eq_comm]
  · obtain ⟨offset, rfl⟩ := Nat.exists_eq_add_of_lt greater
    rw [Nat.add_right_comm]
    constructor
    · intro stands
      refine .inr (.inr ⟨offset, rfl, ?_⟩)
      simpa only [StandsAt, look_right, take_right, unclosedFrom_append, balanced, unclosedFrom,
        openedAfter] using stands
    · intro inPart
      rcases inPart with stands | ⟨same, -⟩ | ⟨other, same, stands⟩
      · have bound := stands.lt_length
        omega
      · omega
      · obtain rfl : other = offset := by omega
        simpa only [StandsAt, look_right, take_right, unclosedFrom_append, balanced, unclosedFrom,
          openedAfter] using stands

theorem standsAt_group {inner : List Token}
    (balanced : ∀ opened base, unclosedFrom opened base inner = opened) :
    StandsAt opened base (.openParen :: (inner ++ [.closeParen])) token depth index ↔
      (index = 0 ∧ token = .openParen ∧ opened.length = depth) ∨
        (∃ offset, index = offset + 1 ∧
          StandsAt (base :: opened) (base + 1) inner token depth offset) ∨
        (index = inner.length + 1 ∧ token = .closeParen ∧ opened.length + 1 = depth) := by
  have outside : ∀ i, inner.length ≤ i →
      ¬ StandsAt (base :: opened) (base + 1) inner token depth i := by
    intro i beyond stands
    have bound := stands.lt_length
    omega
  cases index with
  | zero =>
      simp only [StandsAt, List.getElem?_cons_zero, List.take_zero, unclosedFrom]
      constructor
      · intro stands
        obtain ⟨here, same⟩ := stands
        exact .inl ⟨trivial, (Option.some.inj here).symm, same⟩
      · intro inPart
        rcases inPart with ⟨-, rfl, same⟩ | ⟨offset, same, -⟩ | ⟨same, -⟩
        · exact ⟨rfl, same⟩
        · omega
        · omega
  | succ index =>
      -- Behind the first token one more parenthesis is open.
      have inside : StandsAt opened base (.openParen :: (inner ++ [.closeParen])) token depth
          (index + 1) ↔
            StandsAt (base :: opened) (base + 1) (inner ++ [.closeParen]) token depth index := by
        simp only [StandsAt, List.getElem?_cons_succ, List.take_succ_cons, unclosedFrom,
          openedAfter]
      rw [inside]
      rcases Nat.lt_trichotomy index inner.length with less | rfl | greater
      · simp only [StandsAt, look_left less, List.take_append_of_le_length (Nat.le_of_lt less)]
        constructor
        · intro stands
          exact .inr (.inl ⟨index, rfl, stands⟩)
        · intro inPart
          rcases inPart with ⟨same, -⟩ | ⟨offset, same, stands⟩ | ⟨same, -⟩
          · omega
          · obtain rfl : offset = index := by omega
            exact stands
          · omega
      · simp only [StandsAt, look_middle, List.take_left, balanced, List.length_cons]
        constructor
        · intro stands
          obtain ⟨here, same⟩ := stands
          exact .inr (.inr ⟨trivial, (Option.some.inj here).symm, same⟩)
        · intro inPart
          rcases inPart with ⟨same, -⟩ | ⟨offset, same, stands⟩ | ⟨-, rfl, same⟩
          · omega
          · exact absurd stands (outside offset (by omega))
          · exact ⟨rfl, same⟩
      · constructor
        · intro stands
          have bound := stands.lt_length
          rw [List.length_append, List.length_singleton] at bound
          omega
        · intro inPart
          rcases inPart with ⟨same, -⟩ | ⟨offset, same, stands⟩ | ⟨same, -⟩
          · omega
          · exact absurd stands (outside offset (by omega))
          · omega

end

theorem Phrase.le_depth {category : Category} (phrase : Phrase category) {opened : List Nat}
    {base depth index : Nat} {token : Token}
    (stands : StandsAt opened base phrase.tokens token depth index) : opened.length ≤ depth := by
  induction phrase generalizing opened base index with
  | literal digits nonempty => exact Nat.le_of_eq (standsAt_digits.mp stands).2
  | group inner ih =>
      rcases (standsAt_group inner.unclosedFrom_tokens).mp stands with
        ⟨-, -, same⟩ | ⟨offset, -, inside⟩ | ⟨-, -, same⟩
      · exact Nat.le_of_eq same
      · exact Nat.le_of_succ_le (ih inside)
      · omega
  | operand only ih => exact ih stands
  | joined left op accepted right ihl ihr =>
      rcases (standsAt_joined left.unclosedFrom_tokens).mp stands with
        inLeft | ⟨-, -, same⟩ | ⟨offset, -, inRight⟩
      · exact ihl inLeft
      · exact Nat.le_of_eq same
      · exact ihr inRight

end Arith
