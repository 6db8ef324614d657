import Arith.Proofs.Faults.Limits
import Arith.Proofs.Parser.Answers
import Arith.Proofs.Unambiguous

/-! Exactly the expressions within the limits are accepted, each with its only tree. -/

set_option autoImplicit false

namespace Arith

theorem Phrase.words {category : Category} {phrase : Phrase category} {nesting base : Nat}
    (faultless : phrase.faults nesting base = []) : (phrase.tree base).Words := by
  induction phrase generalizing nesting base with
  | literal digits nonempty =>
      exact (fits_natCast_iff _).mpr ((faults_literal_eq_nil_iff _ _ _).mp faultless)
  | group inner ih => exact ih ((faults_group_eq_nil_iff _ _ _).mp faultless).2
  | operand only ih => exact ih faultless
  | joined left op accepted right ihl ihr =>
      obtain ⟨inLeft, inRight, -⟩ := (faults_joined_eq_nil_iff _ _ _ _ _ _).mp faultless
      exact ⟨ihl inLeft, ihr inRight⟩

theorem nesting_iff (tokens : List Token) :
    (∀ position, ¬ OpensTooDeepAt tokens position) ↔
      ∀ i, (unclosed (tokens.take i)).length ≤ maxNesting := by
  constructor
  · intro shallow i
    induction i with
    | zero => exact Nat.zero_le _
    | succ i ih =>
        cases here : tokens[i]? with
        | none =>
            have beyond := List.getElem?_eq_none_iff.mp here
            rw [List.take_of_length_le (by omega)]
            rwa [List.take_of_length_le beyond] at ih
        | some token =>
            rw [List.take_add_one, here, Option.toList_some, unclosed_concat]
            cases token with
            | openParen =>
                -- The only token that opens; here fewer than the most are open.
                have room : (unclosed (tokens.take i)).length ≠ maxNesting :=
                  fun full => shallow i ⟨here, full⟩
                rw [openedAfter, List.length_cons]
                omega
            | closeParen =>
                rw [openedAfter, List.length_tail]
                omega
            | digit digit => exact ih
            | operator op => exact ih
  · intro bounded position deep
    have bound := bounded (position + 1)
    rw [List.take_add_one, deep.1, Option.toList_some, unclosed_concat, openedAfter,
      List.length_cons, deep.2] at bound
    omega

theorem literals_iff (tokens : List Token) :
    (∀ start, ¬ TooLargeAt tokens start) ↔
      ∀ start digits, DigitRun tokens start digits → digitsValue digits ≤ largestLiteral := by
  constructor
  · intro small start digits run
    exact Nat.le_of_not_lt fun large => small start ⟨digits, run, large⟩
  · intro small start tooLarge
    obtain ⟨digits, run, large⟩ := tooLarge
    exact absurd large (Nat.not_lt.mpr (small start digits run))

/-- The tree of an expression within the limits is its tree in words. -/
theorem parseTree_eq_ok_iff_phrase (phrase : Phrase .expression) (expr : Expr) :
    parseTree phrase.tokens = .ok expr ↔ phrase.faults 0 0 = [] ∧ phrase.tree 0 = expr.tree := by
  rw [parseTree_tokens]
  cases found : phrase.faults 0 0 with
  | nil =>
      have back := Tree.tree_expr (Phrase.words found)
      simp only [Except.ok.injEq, true_and]
      constructor
      · intro same
        rw [← same, back]
      · intro same
        rw [same, Tree.expr_tree]
  | cons fault others => simp

theorem limits_kept_iff (phrase : Phrase .expression) :
    (∀ limit, ¬ Limit.Violated phrase limit) ↔
      (∀ start digits, DigitRun phrase.tokens start digits →
        digitsValue digits ≤ largestLiteral) ∧
      (∀ i, (unclosed (phrase.tokens.take i)).length ≤ maxNesting) ∧
      (phrase.tree 0).height ≤ maxTreeDepth := by
  rw [← literals_iff, ← nesting_iff, ← Nat.not_lt]
  constructor
  · intro kept
    exact ⟨not_exists.mp (kept .literals), not_exists.mp (kept .nesting), kept .depth⟩
  · intro kept limit violated
    cases limit with
    | literals => exact not_exists.mpr kept.1 violated
    | nesting => exact not_exists.mpr kept.2.1 violated
    | depth => exact kept.2.2 violated

theorem parseTree_eq_ok_iff (tokens : List Token) (expr : Expr) :
    parseTree tokens = .ok expr ↔
      Derives tokens expr.tree ∧
      (∀ start digits, DigitRun tokens start digits → digitsValue digits ≤ largestLiteral) ∧
      (∀ i, (unclosed (tokens.take i)).length ≤ maxNesting) ∧
      expr.depth ≤ maxTreeDepth := by
  rw [Expr.depth_eq_height, ← Tree.height_tree]
  constructor
  · intro accepted
    obtain ⟨phrase, rfl⟩ := parseTree_ok accepted
    obtain ⟨faultless, same⟩ := (parseTree_eq_ok_iff_phrase phrase expr).mp accepted
    have limits := (limits_kept_iff phrase).mp (phrase.faults_eq_nil_iff.mp faultless)
    rw [same] at limits
    exact ⟨⟨phrase, rfl, same⟩, limits⟩
  · intro acceptable
    obtain ⟨⟨phrase, tokensSame, treeSame⟩, limits⟩ := acceptable
    subst tokensSame
    rw [← treeSame] at limits
    apply (parseTree_eq_ok_iff_phrase phrase expr).mpr
    exact ⟨phrase.faults_eq_nil_iff.mpr ((limits_kept_iff phrase).mpr limits), treeSame⟩

/-- A phrase is accepted with a tree of words if it has that tree and keeps the two limits
that words do not imply. -/
theorem parseTree_tokens_eq_ok_iff (phrase : Phrase .expression) (expr : Expr) :
    parseTree phrase.tokens = .ok expr ↔
      phrase.tree 0 = expr.tree ∧ mostOpen phrase.tokens ≤ maxNesting ∧
        expr.height ≤ maxTreeDepth := by
  rw [parseTree_eq_ok_iff_phrase, phrase.faults_eq_nil_iff, limits_kept_iff, ← mostOpen_le_iff]
  constructor
  · intro kept
    obtain ⟨⟨-, nesting, depth⟩, same⟩ := kept
    rw [same, Tree.height_tree] at depth
    exact ⟨same, nesting, depth⟩
  · intro kept
    obtain ⟨same, nesting, depth⟩ := kept
    have treeDepth : (phrase.tree 0).height ≤ maxTreeDepth := by rwa [same, Tree.height_tree]
    refine ⟨⟨?_, nesting, treeDepth⟩, same⟩
    intro start digits run
    have member := (phrase.mem_literals 0 start _).mpr
      ⟨start, digits, (Nat.zero_add start).symm, run, rfl⟩
    rw [same] at member
    exact (fits_natCast_iff _).mp (Tree.fits_of_mem_subtrees member)

theorem Derives.unique {tokens : List Token} {first second : Tree}
    (derivesFirst : Derives tokens first) (derivesSecond : Derives tokens second) :
    first = second := by
  obtain ⟨phrase, rfl, rfl⟩ := derivesFirst
  obtain ⟨other, same, rfl⟩ := derivesSecond
  rw [other.eq_of_tokens phrase same]

/-- A sequence is accepted with a tree exactly when it derives the tree and all limits are
kept, and it derives no other tree. -/
theorem acceptance_exact (tokens : List Token) :
    (∀ expr, parseTree tokens = .ok expr ↔
      Derives tokens expr.tree ∧
      (∀ start digits, DigitRun tokens start digits → digitsValue digits ≤ largestLiteral) ∧
      (∀ i, (unclosed (tokens.take i)).length ≤ maxNesting) ∧
      expr.depth ≤ maxTreeDepth) ∧
    ∀ tree other, Derives tokens tree → Derives tokens other → tree = other :=
  ⟨parseTree_eq_ok_iff tokens, fun _ _ first second => first.unique second⟩

end Arith
