import Arith.Proofs.Layout
import Arith.Proofs.Tree

/-! The grammar apart from any parser and any limit.

    expression := term (('+' | '-') term)*
    term       := factor (('*' | '/') factor)*
    factor     := digit+ | '(' expression ')'

A `Phrase` is a derivation. Its tokens are what it derives, its tree is what it means:
a repetition joins its operands from the left, a group means what is inside it.
-/

set_option autoImplicit false

namespace Arith

/-- `chain tight` repeats with the operators that bind tightly, or with the others. -/
inductive Category where
  | factor
  | chain (tight : Bool)
  deriving DecidableEq, Repr

namespace Category

abbrev term : Category := .chain true

abbrev expression : Category := .chain false

/-- What a repetition joins: a term joins factors, an expression joins terms. -/
abbrev operand : (tight : Bool) → Category
  | true => .factor
  | false => term

/-- Whether operators that bind tightly, or else the others, may stand in a phrase of the
category outside its parentheses. With these operators a phrase may also go on. -/
def admits : Category → (tight : Bool) → Bool
  | .factor, _ => false
  | .chain true, tight => tight
  | .chain false, _ => true

end Category

/-- Within a phrase a run of digits is followed by an operator or a parenthesis, so it
is never cut short: see `mem_literals`. What stands before the last operator of a
repetition is a phrase of the same category, so that repetitions fold to the left. -/
inductive Phrase : Category → Type where
  | literal (digits : List UInt8) (nonempty : digits ≠ []) : Phrase .factor
  | group (inner : Phrase .expression) : Phrase .factor
  | operand {tight : Bool} (only : Phrase (.operand tight)) : Phrase (.chain tight)
  | joined {tight : Bool} (left : Phrase (.chain tight)) (op : Operator)
      (accepted : op.isMultiplicative = tight) (right : Phrase (.operand tight)) :
      Phrase (.chain tight)

namespace Phrase

def tokens : {category : Category} → Phrase category → List Token
  | _, .literal digits _ => digits.map .digit
  | _, .group inner => .openParen :: (inner.tokens ++ [.closeParen])
  | _, .operand only => only.tokens
  | _, .joined left op _ right => left.tokens ++ .operator op :: right.tokens

def tree : {category : Category} → Phrase category → (base : Nat) → Tree
  | _, .literal digits _, base => .literal (digitsValue digits) base
  | _, .group inner, base => inner.tree (base + 1)
  | _, .operand only, base => only.tree base
  | _, .joined left op _ right, base =>
    .operation op (left.tree base) (right.tree (base + left.tokens.length + 1))
      (base + left.tokens.length)

variable {category : Category}

theorem tokens_ne_nil (phrase : Phrase category) : phrase.tokens ≠ [] := by
  induction phrase with
  | literal digits nonempty => simpa only [tokens, ne_eq, List.map_eq_nil_iff] using nonempty
  | group inner ih => simp only [tokens, ne_eq, reduceCtorEq, not_false_eq_true]
  | operand only ih => exact ih
  | joined left op accepted right ihl ihr => simp [tokens]

theorem length_joined {tight : Bool} (left : Phrase (.chain tight)) (op : Operator)
    (accepted : op.isMultiplicative = tight) (right : Phrase (.operand tight)) :
    (joined left op accepted right).tokens.length =
      left.tokens.length + 1 + right.tokens.length := by
  simp only [tokens, List.length_append, List.length_cons]
  omega

theorem unclosedFrom_tokens (phrase : Phrase category) (opened : List Nat) (base : Nat) :
    unclosedFrom opened base phrase.tokens = opened := by
  induction phrase generalizing opened base with
  | literal digits nonempty => exact unclosedFrom_digits opened base digits
  | group inner ih =>
      simp only [tokens, unclosedFrom, unclosedFrom_append, openedAfter, ih, List.tail_cons]
  | operand only ih => exact ih opened base
  | joined left op accepted right ihl ihr =>
      simp only [tokens, unclosedFrom_append, ihl, unclosedFrom, openedAfter, ihr]

def nesting : {category : Category} → Phrase category → Nat
  | _, .literal _ _ => 0
  | _, .group inner => inner.nesting + 1
  | _, .operand only => only.nesting
  | _, .joined left _ _ right => max left.nesting right.nesting

theorem mostOpenFrom_tokens (phrase : Phrase category) (opened : List Nat) (base : Nat) :
    mostOpenFrom opened base phrase.tokens = opened.length + phrase.nesting := by
  induction phrase generalizing opened base with
  | literal digits nonempty => exact mostOpenFrom_digits opened base digits
  | group inner ih =>
      simp only [tokens, mostOpenFrom, mostOpenFrom_append, openedAfter, unclosedFrom_tokens, ih,
        List.length_cons, List.tail_cons, nesting]
      omega
  | operand only ih => exact ih opened base
  | joined left op accepted right ihl ihr =>
      simp only [tokens, mostOpenFrom, mostOpenFrom_append, openedAfter, unclosedFrom_tokens, ihl,
        ihr, nesting]
      omega

theorem mostOpen_tokens (phrase : Phrase category) : mostOpen phrase.tokens = phrase.nesting := by
  rw [mostOpen, mostOpenFrom_tokens, List.length_nil, Nat.zero_add]

def groups : {category : Category} → Phrase category → Nat
  | _, .literal _ _ => 0
  | _, .group inner => inner.groups + 1
  | _, .operand only => only.groups
  | _, .joined left _ _ right => left.groups + right.groups

theorem count_parens (phrase : Phrase category) :
    phrase.tokens.count .openParen = phrase.groups ∧
      phrase.tokens.count .closeParen = phrase.groups := by
  induction phrase with
  | literal digits nonempty => simp [tokens, groups, List.count_eq_zero]
  | group inner ih => simp [tokens, groups, ih]
  | operand only ih => exact ih
  | joined left op accepted right ihl ihr => simp [tokens, groups, ihl, ihr]

/-- The literals of a phrase are its runs of digits, each at its full length. -/
theorem mem_literals (phrase : Phrase category) (base position : Nat) (value : Int) :
    .literal value position ∈ (phrase.tree base).subtrees ↔
      ∃ offset digits, position = base + offset ∧ DigitRun phrase.tokens offset digits ∧
        value = digitsValue digits := by
  induction phrase generalizing base with
  | literal digits nonempty =>
      simp only [tree, Tree.subtrees, tokens, List.mem_singleton, Tree.literal.injEq,
        digitRun_map nonempty]
      constructor
      · intro same
        exact ⟨0, digits, same.2, ⟨rfl, rfl⟩, same.1⟩
      · intro here
        obtain ⟨offset, run, rfl, ⟨rfl, rfl⟩, rfl⟩ := here
        exact ⟨rfl, rfl⟩
  | group inner ih =>
      simp only [tree, tokens, ih, digitRun_group]
      constructor
      · intro inside
        obtain ⟨offset, digits, rfl, run, same⟩ := inside
        exact ⟨offset + 1, digits, by omega, ⟨offset, rfl, run⟩, same⟩
      · intro inside
        obtain ⟨-, digits, rfl, ⟨offset, rfl, run⟩, same⟩ := inside
        exact ⟨offset, digits, by omega, run, same⟩
  | operand only ih => exact ih base
  | joined left op accepted right ihl ihr =>
      have apart : ∀ digit, Token.operator op ≠ .digit digit := by simp
      simp only [tree, Tree.subtrees, tokens, List.mem_append, List.mem_singleton, reduceCtorEq,
        or_false, ihl, ihr, digitRun_append_cons apart]
      constructor
      · intro inside
        rcases inside with ⟨offset, digits, rfl, run, same⟩ | ⟨offset, digits, rfl, run, same⟩
        · exact ⟨offset, digits, rfl, .inl run, same⟩
        · exact ⟨left.tokens.length + 1 + offset, digits, by omega, .inr ⟨offset, rfl, run⟩, same⟩
      · intro inside
        rcases inside with ⟨offset, digits, rfl, run | ⟨inRight, rfl, run⟩, same⟩
        · exact .inl ⟨offset, digits, rfl, run, same⟩
        · exact .inr ⟨inRight, digits, by omega, run, same⟩

end Phrase

def InGrammar (tokens : List Token) : Prop :=
  ∃ phrase : Phrase .expression, phrase.tokens = tokens

def Derives (tokens : List Token) (tree : Tree) : Prop :=
  ∃ phrase : Phrase .expression, phrase.tokens = tokens ∧ phrase.tree 0 = tree

end Arith
