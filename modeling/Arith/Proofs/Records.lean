import Arith.Proofs.Acceptance
import Arith.Proofs.Parser.Reductions
import Arith.Trace

/-! What the records of a calculation say about its result.

After the skips and the size of the text come the reductions. Those of an expression that
was read to its end are the operations of its tree, whether the sequence was accepted or
goes on behind it, and a closing record says which of the two it was. Where the reading
failed there is no closing record.
-/

set_option autoImplicit false

namespace Arith

open Arith.Parser

theorem map_char_skipsFrom (offset : Nat) (chars : List Char) :
    (skipsFrom offset chars).map Skip.char =
      chars.filter fun c => (Token.ofChar? c).isNone := by
  induction chars generalizing offset with
  | nil => rfl
  | cons c rest ih =>
      simp only [skipsFrom, List.filter_cons]
      split
      · rw [List.map_cons, ih]
      · exact ih _

/-- An expression at the front of a sequence is accepted if nothing follows it. -/
theorem parseTree_take {tokens : List Token} {parsed : Parsed} {after : State}
    (read : leadingExpression tokens = ⟨.ok parsed, after⟩) :
    after.rest = tokens.drop after.position ∧
      parseTree (tokens.take after.position) = .ok parsed.expr ∧
      parsed.depth = parsed.expr.depth := by
  have consumed := rule_consumes .expression maxNesting (.start 0 tokens)
  have answers := rule_answers .expression (Nat.zero_add maxNesting) [] (.start 0 tokens) Clean.nil
    awaitsOperand_nil rfl rfl
  have outcome : Category.expression.rule maxNesting (.start 0 tokens) = ⟨.ok parsed, after⟩ :=
    read
  rw [outcome] at consumed answers
  obtain ⟨phrase, -, reads, shallow, -⟩ := consumed
  obtain ⟨other, split, -, clean, -⟩ := answers
  have tokensSplit : tokens = phrase.tokens ++ after.rest := reads.tokens
  have place : after.position = phrase.tokens.length := by
    rw [reads.position]
    exact Nat.zero_add _
  -- Both phrases are what the state leaves of the sequence, and one of them is clean.
  have sameTokens : other.tokens = phrase.tokens :=
    List.append_cancel_right (split.symm.trans tokensSplit)
  rw [List.nil_append, sameTokens] at clean
  rw [place]
  subst tokensSplit
  rw [List.take_left, List.drop_left, reads.height, Expr.depth_eq_height]
  refine ⟨rfl, (parseTree_tokens_eq_ok_iff phrase parsed.expr).mpr ⟨reads.tree, ?_, ?_⟩, rfl⟩
  · exact (mostOpen_le_iff _ _).mpr ((nesting_iff _).mp clean.nesting)
  · rwa [reads.height] at shallow

theorem leadingExpression_error {tokens : List Token} {cause : ParseError} {after : State}
    (failed : leadingExpression tokens = ⟨.error cause, after⟩) (token : String)
    (position : Nat) : cause ≠ .unexpectedTrailingTokens token position := by
  have consumed := rule_consumes .expression maxNesting (.start 0 tokens)
  have outcome : Category.expression.rule maxNesting (.start 0 tokens) = ⟨.error cause, after⟩ :=
    failed
  rw [outcome] at consumed
  obtain ⟨read, -, -, stops⟩ := consumed
  generalize after.rest = ahead at stops
  rintro rfl
  cases stops

theorem parse_eq_error_iff {tokens : List Token} {cause : ParseError}
    (other : ∀ error, cause ≠ .evaluation error) :
    parse tokens = .error cause ↔ parseTree tokens = .error cause := by
  unfold parse
  cases parseTree tokens with
  | error actual => simp
  | ok expr =>
      cases result : expr.evaluate with
      | ok value => simp [result, Except.mapError]
      | error error => simp [result, Except.mapError, (other error).symm]

/-- How the reading of a sequence ended, with the reductions made until then and the record
that closes them. -/
inductive Recorded (tokens : List Token) :
    Except ParseError Expr → List Reduction → Option Record → Prop where
  | accepted (expr : Expr) :
      Recorded tokens (.ok expr) expr.reductions (some (.parsed tokens.length expr.depth))
  | trailing {parsed : Parsed} {after : State} (token : Token)
      (read : leadingExpression tokens = ⟨.ok parsed, after⟩)
      (alone : parseTree (tokens.take after.position) = .ok parsed.expr) :
      Recorded tokens (.error (.unexpectedTrailingTokens token.text after.position))
        parsed.expr.reductions (some (.rejectedTrailing after.position))
  | failed {cause : ParseError} {made : List Reduction} (located : Made tokens 0 made)
      (reading : ∀ token position, cause ≠ .unexpectedTrailingTokens token position)
      (fresh : ∀ position, cause = .expressionTooDeep position →
        ∀ reduction ∈ made, reduction.position ≠ position) :
      Recorded tokens (.error cause) made none

/-- A sequence is recorded up to its end, whichever that is. -/
theorem parsingRecords_recorded (tokens : List Token) : ∃ made closing,
    parsingRecords tokens = made.map .reduced ++ closing.toList ∧
      Recorded tokens (parseTree tokens) made closing := by
  have reported : Reports tokens (.start 0 tokens) (leadingExpression tokens) :=
    expression_reports 0 (.start 0 tokens) rfl
  cases answered : leadingExpression tokens with
  | mk result after =>
    rw [answered] at reported
    cases result with
    | error cause =>
        obtain ⟨made, recorded, located, fresh⟩ := reported
        refine ⟨made, none, ?_, ?_⟩
        · simp [parsingRecords, answered, recorded, State.start]
        · simp only [parseTree, answered]
          exact .failed located (leadingExpression_error answered) fun position deep =>
            (fresh position deep).2
    | ok parsed =>
        obtain ⟨-, -, recorded, -, -⟩ := reported
        obtain ⟨-, alone, depth⟩ := parseTree_take answered
        refine ⟨parsed.expr.reductions, ?_⟩
        cases behind : after.rest with
        | cons token rest =>
            refine ⟨some (.rejectedTrailing after.position), ?_, ?_⟩
            · simp [parsingRecords, answered, recorded, State.start, State.next?, behind]
            · simp only [parseTree, answered, State.next?, behind, List.head?_cons,
                Option.map_some]
              exact .trailing token answered alone
        | nil =>
            refine ⟨some (.parsed tokens.length parsed.expr.depth), ?_, ?_⟩
            · simp [parsingRecords, answered, recorded, State.start, State.next?, behind, depth]
            · simp only [parseTree, answered, State.next?, behind, List.head?_nil,
                Option.map_none]
              exact .accepted parsed.expr

theorem Recorded.level {tokens : List Token} {result : Except ParseError Expr}
    {made : List Reduction} {closing : Option Record}
    (recording : Recorded tokens result made closing) :
    closing.toList.map Record.level = List.replicate closing.toList.length .debug := by
  cases recording <;> rfl

theorem records_eq (text : String) {made : List Reduction} {closing : Option Record}
    (parsing : parsingRecords (lex text) = made.map .reduced ++ closing.toList) :
    records text = (skips text).map .skipped ++
      .lexed (lex text).length text.utf8ByteSize :: (made.map .reduced ++ closing.toList) := by
  rw [records, lexingRecords, parsing, List.append_assoc, List.singleton_append]

/-- The skips and the size of a text, then the reductions of its tree, and whether the
sequence ended there; where the reading failed, what was reduced before. -/
theorem records_exact (text : String) :
    ∃ (made : List Reduction) (closing : Option Record),
      records text = (skips text).map .skipped ++
        .lexed (lex text).length text.utf8ByteSize ::
          (made.map .reduced ++ closing.toList) ∧
      (records text).map Record.level = List.replicate (skips text).length .trace ++
        .debug :: (List.replicate made.length .trace ++
          List.replicate closing.toList.length .debug) ∧
      (skips text).map Skip.char = text.toList.filter (fun c => (Token.ofChar? c).isNone) ∧
      (∀ expr, parseTree (lex text) = .ok expr →
        made = expr.reductions ∧ closing = some (.parsed (lex text).length expr.depth)) ∧
      (∀ token position,
        calculate text = .error (.unexpectedTrailingTokens token position) →
          ∃ parsed after, leadingExpression (lex text) = ⟨.ok parsed, after⟩ ∧
            after.position = position ∧
            parseTree ((lex text).take position) = .ok parsed.expr ∧
            made = parsed.expr.reductions ∧ closing = some (.rejectedTrailing position)) ∧
      ∀ cause, calculate text = .error cause → (∀ error, cause ≠ .evaluation error) →
        (∀ token position, cause ≠ .unexpectedTrailingTokens token position) →
          closing = none ∧ (made.map Reduction.position).Nodup ∧
          (∀ reduction ∈ made,
            (lex text)[reduction.position]? = some (.operator reduction.op)) ∧
          ∀ position, cause = .expressionTooDeep position →
            ∀ reduction ∈ made, reduction.position ≠ position := by
  obtain ⟨made, closing, parsing, recording⟩ := parsingRecords_recorded (lex text)
  have recorded := records_eq text parsing
  refine ⟨made, closing, recorded, ?_, ?_, ?_, ?_, ?_⟩
  · rw [recorded, List.map_append, List.map_cons, List.map_append, recording.level]
    simp [Function.comp_def, Record.level]
  · rw [skips_eq, map_char_skipsFrom]
  · intro expr accepted
    rw [accepted] at recording
    cases recording
    exact ⟨rfl, rfl⟩
  · intro token position rejected
    rw [calculate, parse_eq_error_iff (by simp)] at rejected
    rw [rejected] at recording
    cases recording with
    | trailing token read alone => exact ⟨_, _, read, rfl, alone, rfl, rfl⟩
    | failed located reading fresh => exact absurd rfl (reading token position)
  · intro cause rejected noEvaluation noTrailing
    rw [calculate, parse_eq_error_iff noEvaluation] at rejected
    rw [rejected] at recording
    cases recording with
    | trailing token read alone => exact absurd rfl (noTrailing token.text _)
    | failed located reading fresh =>
        exact ⟨rfl, located.distinct, located.located, fresh⟩

end Arith
