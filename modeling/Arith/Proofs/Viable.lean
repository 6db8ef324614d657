import Arith.Proofs.Grammar
import Mathlib.Data.List.Basic
import Mathlib.Data.List.Induction

/-! Prefixes of expressions.

Whether a token may come next depends on the last token and on whether a parenthesis
is open. A sequence in which each token may follow those before it can be completed,
and there are no other prefixes of expressions.
-/

set_option autoImplicit false

namespace Arith

def Viable (tokens : List Token) : Prop :=
  ∃ more, InGrammar (tokens ++ more)

def MayFollow (before : List Token) : Token → Prop
  | .openParen => AwaitsOperand before
  | .digit _ => before.getLast? ≠ some .closeParen
  | .operator _ => ¬ AwaitsOperand before
  | .closeParen => ¬ AwaitsOperand before ∧ unclosed before ≠ []

def Coherent (tokens : List Token) : Prop :=
  ∀ i token, tokens[i]? = some token → MayFollow (tokens.take i) token

theorem awaitsOperand_nil : AwaitsOperand [] :=
  .inl rfl

theorem awaitsOperand_concat (tokens : List Token) (token : Token) :
    AwaitsOperand (tokens ++ [token]) ↔ token = .openParen ∨ ∃ op, token = .operator op := by
  simp [AwaitsOperand]

theorem exists_last_digit {tokens : List Token} (complete : ¬ AwaitsOperand tokens)
    (other : tokens.getLast? ≠ some .closeParen) :
    ∃ digit, tokens.getLast? = some (.digit digit) := by
  cases tokens using List.reverseRecOn with
  | nil => exact absurd awaitsOperand_nil complete
  | append_singleton tokens token =>
      rw [awaitsOperand_concat] at complete
      rw [List.getLast?_concat] at other ⊢
      cases token with
      | openParen => exact absurd (.inl rfl) complete
      | operator op => exact absurd (.inr ⟨op, rfl⟩) complete
      | closeParen => exact absurd rfl other
      | digit digit => exact ⟨digit, rfl⟩

theorem getLast?_behind {first second : List Token} {token : Token} (nonempty : second ≠ []) :
    (first ++ token :: second).getLast? = second.getLast? := by
  obtain ⟨init, last, rfl⟩ := (List.eq_nil_or_concat' second).resolve_left nonempty
  rw [← List.cons_append, ← List.append_assoc, List.getLast?_concat, List.getLast?_concat]

theorem coherent_nil : Coherent [] := by
  intro i token found
  cases found

theorem Coherent.of_append {first second : List Token} (coherent : Coherent (first ++ second)) :
    Coherent first := by
  intro i token found
  have bound := (List.getElem?_eq_some_iff.mp found).1
  have follows := coherent i token (by rw [List.getElem?_append_left bound, found])
  rwa [List.take_append_of_le_length (Nat.le_of_lt bound)] at follows

theorem coherent_concat (tokens : List Token) (token : Token) :
    Coherent (tokens ++ [token]) ↔ Coherent tokens ∧ MayFollow tokens token := by
  constructor
  · intro coherent
    have follows := coherent tokens.length token look_middle
    rw [List.take_left] at follows
    exact ⟨coherent.of_append, follows⟩
  · intro both i other found
    rcases Nat.lt_or_ge i tokens.length with inside | outside
    · rw [List.getElem?_append_left inside] at found
      rw [List.take_append_of_le_length (Nat.le_of_lt inside)]
      exact both.1 i other found
    · have bound := (List.getElem?_eq_some_iff.mp found).1
      rw [List.length_append, List.length_singleton] at bound
      obtain rfl : i = tokens.length := by omega
      rw [look_middle] at found
      cases found
      rw [List.take_left]
      exact both.2

theorem Coherent.digits {before : List Token} (coherent : Coherent before)
    (awaits : AwaitsOperand before) (digits : List UInt8) :
    Coherent (before ++ digits.map .digit) := by
  induction digits using List.reverseRecOn with
  | nil => rwa [List.map_nil, List.append_nil]
  | append_singleton digits digit ih =>
      rw [List.map_append, ← List.append_assoc]
      refine (coherent_concat _ _).mpr ⟨ih, ?_⟩
      cases digits using List.reverseRecOn with
      | nil =>
          rcases awaits with rfl | last | ⟨op, last⟩
          · simp [MayFollow]
          · simp [MayFollow, last]
          · simp [MayFollow, last]
      | append_singleton digits digit => simp [MayFollow]

namespace Phrase

variable {category : Category}

theorem not_awaitsOperand (phrase : Phrase category) (before : List Token) :
    ¬ AwaitsOperand (before ++ phrase.tokens) := by
  induction phrase generalizing before with
  | literal digits nonempty =>
      obtain ⟨first, last, rfl⟩ := (List.eq_nil_or_concat' digits).resolve_left nonempty
      rw [tokens, List.map_append, ← List.append_assoc, List.map_singleton, awaitsOperand_concat]
      simp only [reduceCtorEq, exists_false, or_self, not_false_eq_true]
  | group inner ih =>
      rw [tokens, ← List.cons_append, ← List.append_assoc, awaitsOperand_concat]
      simp only [reduceCtorEq, exists_false, or_self, not_false_eq_true]
  | operand only ih => exact ih before
  | joined left op accepted right ihl ihr =>
      have behind := ihr (before ++ left.tokens ++ [.operator op])
      simpa only [tokens, List.append_assoc, List.cons_append, List.nil_append] using behind

theorem unclosed_append (phrase : Phrase category) (before : List Token) :
    unclosed (before ++ phrase.tokens) = unclosed before := by
  rw [unclosed, unclosedFrom_append, unclosedFrom_tokens]
  rfl

theorem coherent (phrase : Phrase category) {before : List Token} (whole : Coherent before)
    (awaits : AwaitsOperand before) : Coherent (before ++ phrase.tokens) := by
  induction phrase generalizing before with
  | literal digits nonempty => exact whole.digits awaits digits
  | group inner ih =>
      have opened := (coherent_concat before .openParen).mpr ⟨whole, awaits⟩
      have inside := ih opened ((awaitsOperand_concat _ _).mpr (.inl rfl))
      have closed := (coherent_concat _ .closeParen).mpr ⟨inside, inner.not_awaitsOperand _, by
        rw [inner.unclosed_append, unclosed_concat]
        exact List.cons_ne_nil _ _⟩
      simpa only [tokens, List.append_assoc, List.cons_append, List.nil_append] using closed
  | operand only ih => exact ih whole awaits
  | joined left op accepted right ihl ihr =>
      have joined := (coherent_concat _ (.operator op)).mpr
        ⟨ihl whole awaits, left.not_awaitsOperand before⟩
      have behind := ihr joined ((awaitsOperand_concat _ _).mpr (.inr ⟨op, rfl⟩))
      simpa only [tokens, List.append_assoc, List.cons_append, List.nil_append] using behind

end Phrase

theorem Viable.coherent {tokens : List Token} (viable : Viable tokens) : Coherent tokens := by
  obtain ⟨more, phrase, same⟩ := viable
  have whole := phrase.coherent coherent_nil awaitsOperand_nil
  rw [List.nil_append, same] at whole
  exact whole.of_append

/-- The factor joins the last term where the operator binds tightly. -/
theorem Phrase.exists_extended (phrase : Phrase .expression) (op : Operator)
    (next : Phrase .factor) :
    ∃ longer : Phrase .expression,
      longer.tokens = phrase.tokens ++ .operator op :: next.tokens := by
  cases tight : op.isMultiplicative with
  | false => exact ⟨.joined phrase op tight (.operand next), rfl⟩
  | true =>
      cases phrase with
      | operand only => exact ⟨.operand (.joined only op tight next), rfl⟩
      | joined left other accepted right =>
          refine ⟨.joined left other accepted (.joined right op tight next), ?_⟩
          simp only [tokens, List.append_assoc, List.cons_append]

theorem Phrase.exists_longer {category : Category} (phrase : Phrase category) {digit : UInt8}
    (last : phrase.tokens.getLast? = some (.digit digit)) (next : UInt8) :
    ∃ longer : Phrase category, longer.tokens = phrase.tokens ++ [.digit next] := by
  induction phrase with
  | literal digits nonempty =>
      exact ⟨.literal (digits ++ [next]) (by simp), by simp [tokens]⟩
  | group inner ih =>
      simp [tokens, List.getLast?_cons, List.getLast?_append] at last
  | operand only ih =>
      obtain ⟨longer, same⟩ := ih last
      exact ⟨.operand longer, same⟩
  | joined left op accepted right ihl ihr =>
      have inRight : right.tokens.getLast? = some (.digit digit) := by
        rwa [tokens, getLast?_behind right.tokens_ne_nil] at last
      obtain ⟨longer, same⟩ := ihr inRight
      refine ⟨.joined left op accepted longer, ?_⟩
      simp only [tokens, same, List.append_assoc, List.cons_append]

/-- The sequence is an expression inside so many parentheses that are not closed, and
whatever factor the innermost group stands for, what is outside can be completed. -/
def Holds : (nesting : Nat) → List Token → Prop
  | 0, tokens => InGrammar tokens
  | nesting + 1, tokens => ∃ outside, ∃ inside : Phrase .expression,
      tokens = outside ++ .openParen :: inside.tokens ∧
        ∀ group : Phrase .factor, Holds nesting (outside ++ group.tokens)

def Awaits (nesting : Nat) (tokens : List Token) : Prop :=
  ∀ next : Phrase .factor, Holds nesting (tokens ++ next.tokens)

theorem Awaits.open {nesting : Nat} {tokens : List Token} (awaits : Awaits nesting tokens) :
    Awaits (nesting + 1) (tokens ++ [.openParen]) := by
  intro next
  refine ⟨tokens, .operand (.operand next), ?_, awaits⟩
  simp only [Phrase.tokens, List.append_assoc, List.cons_append, List.nil_append]

theorem Holds.operator {nesting : Nat} {tokens : List Token} (holds : Holds nesting tokens)
    (op : Operator) : Awaits nesting (tokens ++ [.operator op]) := by
  intro next
  cases nesting with
  | zero =>
      obtain ⟨phrase, rfl⟩ := holds
      obtain ⟨longer, same⟩ := phrase.exists_extended op next
      exact ⟨longer, by rw [same, List.append_assoc, List.singleton_append]⟩
  | succ nesting =>
      obtain ⟨outside, inside, rfl, around⟩ := holds
      obtain ⟨longer, same⟩ := inside.exists_extended op next
      refine ⟨outside, longer, ?_, around⟩
      simp only [same, List.append_assoc, List.cons_append, List.nil_append]

theorem Holds.close {nesting : Nat} {tokens : List Token} (holds : Holds (nesting + 1) tokens) :
    Holds nesting (tokens ++ [.closeParen]) := by
  obtain ⟨outside, inside, rfl, around⟩ := holds
  have closed := around (.group inside)
  simpa only [Phrase.tokens, List.append_assoc, List.cons_append] using closed

theorem Holds.digit {nesting : Nat} {tokens : List Token} {digit : UInt8}
    (holds : Holds nesting tokens) (last : tokens.getLast? = some (.digit digit)) (next : UInt8) :
    Holds nesting (tokens ++ [.digit next]) := by
  cases nesting with
  | zero =>
      obtain ⟨phrase, rfl⟩ := holds
      exact phrase.exists_longer last next
  | succ nesting =>
      obtain ⟨outside, inside, rfl, around⟩ := holds
      rw [getLast?_behind inside.tokens_ne_nil] at last
      obtain ⟨longer, same⟩ := inside.exists_longer last next
      refine ⟨outside, longer, ?_, around⟩
      simp only [same, List.append_assoc, List.cons_append]

theorem Holds.viable {nesting : Nat} {tokens : List Token} (holds : Holds nesting tokens) :
    Viable tokens := by
  induction nesting generalizing tokens with
  | zero => exact ⟨[], by rwa [List.append_nil]⟩
  | succ nesting ih =>
      obtain ⟨more, whole⟩ := ih holds.close
      exact ⟨.closeParen :: more, by simpa using whole⟩

theorem Coherent.completable {tokens : List Token} (coherent : Coherent tokens) :
    (AwaitsOperand tokens → Awaits (unclosed tokens).length tokens) ∧
      (¬ AwaitsOperand tokens → Holds (unclosed tokens).length tokens) := by
  induction tokens using List.reverseRecOn with
  | nil =>
      refine ⟨fun _ next => ⟨.operand (.operand next), rfl⟩, ?_⟩
      intro other
      exact absurd awaitsOperand_nil other
  | append_singleton tokens token ih =>
      obtain ⟨before, follows⟩ := (coherent_concat tokens token).mp coherent
      obtain ⟨awaiting, holding⟩ := ih before
      rw [unclosed_concat, awaitsOperand_concat]
      cases token with
      -- Each token keeps one of the two up, as its place among the others demands.
      | openParen =>
          refine ⟨fun _ => (awaiting follows).open, ?_⟩
          intro other
          exact absurd (.inl rfl) other
      | operator op =>
          refine ⟨fun _ => (holding follows).operator op, ?_⟩
          intro other
          exact absurd (.inr ⟨op, rfl⟩) other
      | closeParen =>
          refine ⟨by simp, fun _ => ?_⟩
          obtain ⟨complete, someOpen⟩ := follows
          obtain ⟨position, opened, here⟩ := List.exists_cons_of_ne_nil someOpen
          have inside := holding complete
          rw [here] at inside ⊢
          exact inside.close
      | digit digit =>
          refine ⟨by simp, fun _ => ?_⟩
          by_cases awaits : AwaitsOperand tokens
          · exact awaiting awaits (.literal [digit] (List.cons_ne_nil _ _))
          · obtain ⟨previous, last⟩ := exists_last_digit awaits follows
            exact (holding awaits).digit last digit

theorem viable_iff_coherent (tokens : List Token) : Viable tokens ↔ Coherent tokens := by
  constructor
  · exact Viable.coherent
  · intro coherent
    obtain ⟨awaiting, holding⟩ := coherent.completable
    -- Where an operand is due, any digit will do for it.
    by_cases awaits : AwaitsOperand tokens
    · obtain ⟨more, whole⟩ := (awaiting awaits (.literal [0] (List.cons_ne_nil _ _))).viable
      exact ⟨_, by rwa [List.append_assoc] at whole⟩
    · exact (holding awaits).viable

theorem inGrammar_iff (tokens : List Token) :
    InGrammar tokens ↔ Coherent tokens ∧ ¬ AwaitsOperand tokens ∧ unclosed tokens = [] := by
  constructor
  · intro whole
    obtain ⟨phrase, rfl⟩ := whole
    exact ⟨phrase.coherent coherent_nil awaitsOperand_nil, phrase.not_awaitsOperand [],
      phrase.unclosed_append []⟩
  · intro finished
    obtain ⟨coherent, complete, closed⟩ := finished
    have holds := coherent.completable.2 complete
    rw [closed] at holds
    exact holds

end Arith
