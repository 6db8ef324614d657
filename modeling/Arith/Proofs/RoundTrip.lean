import Arith.Proofs.Acceptance
import Arith.Proofs.Printing

/-! Printing and parsing again.

A tree whose text keeps the limits is read back from it, positions apart. The text of a
tree that was itself read never has more parentheses than the sequence it was read from,
so it keeps the limits and has the same value.
-/

set_option autoImplicit false

namespace Arith

inductive SameOutcome : Except ParseError Int64 → Except ParseError Int64 → Prop where
  | value (value : Int64) : SameOutcome (.ok value) (.ok value)
  | divisionByZero (position other : Nat) :
    SameOutcome (.error (.evaluation (.divisionByZero position)))
      (.error (.evaluation (.divisionByZero other)))
  | overflow (op : Operator) (position other : Nat) :
    SameOutcome (.error (.evaluation (.overflow op position)))
      (.error (.evaluation (.overflow op other)))

theorem Expr.SameShape.sameOutcome {first second : Expr} (same : first.SameShape second) :
    SameOutcome (first.evaluate.mapError .evaluation) (second.evaluate.mapError .evaluation) := by
  have erased := same.evaluate_eq
  cases one : first.evaluate with
  | ok value =>
      cases two : second.evaluate with
      | error cause =>
          rw [one, two] at erased
          cases erased
      | ok other =>
          rw [one, two] at erased
          cases erased
          exact .value value
  | error cause =>
      cases two : second.evaluate with
      | ok value =>
          rw [one, two] at erased
          cases erased
      | error other =>
          rw [one, two] at erased
          cases cause <;> cases other <;> cases erased
          · exact .divisionByZero _ _
          · exact .overflow _ _ _

theorem parse_of_parseTree {tokens : List Token} {expr : Expr}
    (accepted : parseTree tokens = .ok expr) :
    parse tokens = expr.evaluate.mapError .evaluation := by
  rw [parse, accepted]

namespace Expr

theorem parseTree_infixForm {expr : Expr} (nonNegative : expr.NonNegative)
    (depth : expr.depth ≤ maxTreeDepth)
    (nesting : mostOpen (lex expr.infixForm) ≤ maxNesting) :
    ∃ again, parseTree (lex expr.infixForm) = .ok again ∧ again.SameShape expr := by
  obtain ⟨again, sameTree, sameShape⟩ := tree_phraseAt nonNegative .expression 0
  rw [lex_infixForm nonNegative] at nesting ⊢
  refine ⟨again, (parseTree_tokens_eq_ok_iff _ again).mpr ⟨sameTree, nesting, ?_⟩, sameShape⟩
  rwa [sameShape.height_eq, ← depth_eq_height]

/-- The text of a tree that was read has no parentheses beyond those that were read. -/
theorem parens_infixForm_le {tokens : List Token} {expr : Expr}
    (accepted : parseTree tokens = .ok expr) :
    (lex expr.infixForm).count .openParen ≤ tokens.count .openParen ∧
      (lex expr.infixForm).count .closeParen ≤ tokens.count .closeParen ∧
      mostOpen (lex expr.infixForm) ≤ mostOpen tokens := by
  obtain ⟨phrase, rfl⟩ := parseTree_ok accepted
  obtain ⟨same, -, -⟩ := (parseTree_tokens_eq_ok_iff phrase expr).mp accepted
  have sparser := phraseAt_sparser phrase same
  rw [lex_infixForm (phrase.nonNegative same)]
  simp only [Phrase.count_parens, Phrase.mostOpen_tokens]
  exact ⟨sparser.groups, sparser.groups, sparser.nesting⟩

theorem reparse {tokens : List Token} {expr : Expr} (accepted : parseTree tokens = .ok expr) :
    ∃ again, parseTree (lex expr.infixForm) = .ok again ∧ again.SameShape expr := by
  have lessOpen := (parens_infixForm_le accepted).2.2
  obtain ⟨phrase, rfl⟩ := parseTree_ok accepted
  obtain ⟨same, nesting, depth⟩ := (parseTree_tokens_eq_ok_iff phrase expr).mp accepted
  rw [← depth_eq_height] at depth
  exact parseTree_infixForm (phrase.nonNegative same) depth (Nat.le_trans lessOpen nesting)

end Expr

/-- Parsing undoes printing, and printing what was parsed breaks no limit. -/
theorem reprinting_exact :
    (∀ expr : Expr, expr.NonNegative → expr.depth ≤ maxTreeDepth →
      mostOpen (lex expr.infixForm) ≤ maxNesting →
      ∃ again, parseTree (lex expr.infixForm) = .ok again ∧ again.SameShape expr) ∧
    ∀ tokens expr, parseTree tokens = .ok expr →
      (lex expr.infixForm).count .openParen ≤ tokens.count .openParen ∧
      (lex expr.infixForm).count .closeParen ≤ tokens.count .closeParen ∧
      mostOpen (lex expr.infixForm) ≤ mostOpen tokens ∧
      (∃ again, parseTree (lex expr.infixForm) = .ok again ∧ again.SameShape expr) ∧
      SameOutcome (parse tokens) (parse (lex expr.infixForm)) := by
  refine ⟨fun _ nonNegative => Expr.parseTree_infixForm nonNegative, ?_⟩
  intro tokens expr accepted
  obtain ⟨opening, closing, nesting⟩ := Expr.parens_infixForm_le accepted
  obtain ⟨again, reread, same⟩ := Expr.reparse accepted
  refine ⟨opening, closing, nesting, ⟨again, reread, same⟩, ?_⟩
  rw [parse_of_parseTree accepted, parse_of_parseTree reread]
  exact Expr.SameShape.sameOutcome same.symm

theorem reprinting_spare_parentheses :
    ∃ expr, parseTree (lex "(1)-(2-3)") = .ok expr ∧ expr.infixForm = "1-(2-3)" ∧
      (∃ again, parseTree (lex "1-(2-3)") = .ok again ∧ again.SameShape expr) ∧
      SameOutcome (parse (lex "(1)-(2-3)")) (parse (lex "1-(2-3)")) := by
  let one : Phrase .expression := .operand (.operand (.literal [1] (by decide)) : Phrase .term)
  let two : Phrase .expression := .operand (.operand (.literal [2] (by decide)) : Phrase .term)
  let inner : Phrase .expression :=
    .joined two .sub rfl (.operand (.literal [3] (by decide)) : Phrase .term)
  let outer : Phrase .expression :=
    .joined (.operand (.operand (.group one) : Phrase .term)) .sub rfl
      (.operand (.group inner) : Phrase .term)
  let expr : Expr := .operation .sub (.literal 1 1)
    (.operation .sub (.literal 2 5) (.literal 3 7) 6) 3
  have spelled : lex "(1)-(2-3)" = outer.tokens := by decide
  have accepted : parseTree (lex "(1)-(2-3)") = .ok expr := by
    rw [spelled, parseTree_tokens_eq_ok_iff]
    decide
  have printed : expr.infixForm = "1-(2-3)" := by decide
  have depth : expr.depth ≤ maxTreeDepth := by rw [expr.depth_eq_height]; decide
  have nesting : mostOpen (lex expr.infixForm) ≤ maxNesting := by rw [printed]; decide
  have again := reprinting_exact.1 expr (by decide) depth nesting
  obtain ⟨-, -, -, -, same⟩ := reprinting_exact.2 _ _ accepted
  rw [printed] at again same
  exact ⟨expr, accepted, printed, again, same⟩

end Arith
