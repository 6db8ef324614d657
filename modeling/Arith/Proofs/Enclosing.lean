import Arith.Proofs.LimitErrors
import Arith.Proofs.Relocation
import Arith.Proofs.RoundTrip

/-! Parentheses around a whole sequence.

They change positions only, for as long as they and those of the sequence keep the limit
together. From there on it is the first parenthesis beyond the limit that is refused, be it
one of those outside or of those inside.
-/

set_option autoImplicit false

namespace Arith

def enclosed (tokens : List Token) (count : Nat) : List Token :=
  List.replicate count .openParen ++ (tokens ++ List.replicate count .closeParen)

namespace Phrase

def enclose (phrase : Phrase .expression) : (count : Nat) → Phrase .expression
  | 0 => phrase
  | count + 1 => .operand (.operand (.group (phrase.enclose count)) : Phrase .term)

theorem tokens_enclose (phrase : Phrase .expression) (count : Nat) :
    (phrase.enclose count).tokens = enclosed phrase.tokens count := by
  induction count with
  | zero => exact (List.append_nil _).symm
  | succ count ih =>
      simp only [enclose, tokens, ih, enclosed, List.replicate_succ (a := Token.openParen),
        List.replicate_succ' (a := Token.closeParen), List.cons_append, List.append_assoc]

theorem tree_enclose (phrase : Phrase .expression) (count base : Nat) :
    (phrase.enclose count).tree base = phrase.tree (base + count) := by
  induction count generalizing base with
  | zero => rfl
  | succ count ih =>
      rw [enclose, tree, tree, tree, ih, Nat.add_assoc, Nat.add_comm 1]

theorem nesting_enclose (phrase : Phrase .expression) (count : Nat) :
    (phrase.enclose count).nesting = count + phrase.nesting := by
  induction count with
  | zero => exact (Nat.zero_add _).symm
  | succ count ih =>
      rw [enclose, nesting, nesting, nesting, ih]
      omega

/-- Parentheses around a phrase without faults can only be too many. -/
theorem faults_enclose {phrase : Phrase .expression} (faultless : phrase.faults 0 0 = [])
    {count nesting base : Nat} {fault : Fault}
    (member : fault ∈ (phrase.enclose count).faults nesting base) :
    fault.cause = .nestingTooDeep fault.point := by
  induction count generalizing nesting base with
  | zero => exact faults_elsewhere faultless member
  | succ count ih =>
      rcases List.mem_append.mp member with self | inside
      · split at self
        · cases List.mem_singleton.mp self
          rfl
        · cases self
      · exact ih inside

end Phrase

/-- With further parentheses around it an accepted sequence has the same tree and the same
value at later positions, until the limit on parentheses is exceeded. -/
theorem enclosing_exact {tokens : List Token} {expr : Expr}
    (accepted : parseTree tokens = .ok expr) (count : Nat) :
    (count + mostOpen tokens ≤ maxNesting →
      parseTree (enclosed tokens count) = .ok (expr.mapPositions (· + count)) ∧
      (∀ value, parse tokens = .ok value → parse (enclosed tokens count) = .ok value) ∧
      ∀ cause, parse tokens = .error (.evaluation cause) →
        parse (enclosed tokens count) =
          .error (.evaluation (cause.mapPosition (· + count)))) ∧
    (maxNesting < count + mostOpen tokens → ∃ position,
      parseTree (enclosed tokens count) = .error (.nestingTooDeep position) ∧
      OpensTooDeepAt (enclosed tokens count) position ∧
      ∀ earlier, earlier < position → ¬ OpensTooDeepAt (enclosed tokens count) earlier) := by
  obtain ⟨phrase, rfl⟩ := parseTree_ok accepted
  obtain ⟨faultless, same⟩ := (parseTree_eq_ok_iff_phrase phrase expr).mp accepted
  rw [← phrase.tokens_enclose, phrase.mostOpen_tokens, ← phrase.nesting_enclose]
  constructor
  · intro room
    have moved := phrase.tree_shifted same count
    rw [← phrase.tree_enclose] at moved
    have within : parseTree (phrase.enclose count).tokens =
        .ok (expr.mapPositions (· + count)) := by
      rw [parseTree_tokens_eq_ok_iff, Phrase.mostOpen_tokens, Expr.height_mapPositions]
      have shallow := Phrase.height_le_of_faultless faultless
      rw [same, Tree.height_tree] at shallow
      exact ⟨moved, room, shallow⟩
    refine ⟨within, ?_⟩
    rw [parse_of_parseTree accepted, parse_of_parseTree within, Expr.evaluate_mapPositions]
    cases expr.evaluate with
    | ok value =>
        refine ⟨fun _ => id, ?_⟩
        intro cause failed
        cases failed
    | error actual =>
        refine ⟨?_, ?_⟩
        · intro value found
          cases found
        · intro cause failed
          cases failed
          rfl
  · intro crowd
    have faulty : (phrase.enclose count).faults 0 0 ≠ [] := by
      intro none
      have room := (Phrase.faults_elsewhere_eq_nil_iff none (Nat.zero_le _) 0).mp none
      omega
    obtain ⟨fault, member, error⟩ := parseTree_of_faults (List.append_nil _).symm faulty
    rw [Phrase.faults_enclose faultless member] at error
    exact ⟨fault.point, error, parseTree_nestingTooDeep error⟩

theorem enclosing_failing_quotient :
    parseTree (lex "8/0") = .ok (.operation .div (.literal 8 0) (.literal 0 2) 1) ∧
    parse (lex "8/0") = .error (.evaluation (.divisionByZero 1)) ∧
    enclosed (lex "8/0") 2 = lex "((8/0))" ∧
    parseTree (lex "((8/0))") = .ok (.operation .div (.literal 8 2) (.literal 0 4) 3) ∧
    parse (lex "((8/0))") = .error (.evaluation (.divisionByZero 3)) := by
  let quotient : Phrase .term :=
    .joined (.operand (.literal [8] (by decide))) .div rfl (.literal [0] (by decide))
  have spelled : lex "8/0" = (Phrase.operand quotient : Phrase .expression).tokens := by decide
  have accepted :
      parseTree (lex "8/0") = .ok (.operation .div (.literal 8 0) (.literal 0 2) 1) := by
    rw [spelled, parseTree_tokens_eq_ok_iff]
    decide
  have failed : parse (lex "8/0") = .error (.evaluation (.divisionByZero 1)) := by
    rw [parse, accepted]
    rfl
  have outside : enclosed (lex "8/0") 2 = lex "((8/0))" := by decide
  obtain ⟨tree, -, error⟩ := (enclosing_exact accepted 2).1 (by decide)
  have again := error _ failed
  rw [outside] at tree again
  exact ⟨accepted, failed, outside, tree, again⟩

end Arith
