import Arith.Proofs.Faults.Limits
import Arith.Proofs.Parser.Answers

/-! Where a sequence stops being an expression.

The place is that of the first token with which no expression can go on, or the end. It
fixes the syntax error: which of the four it is, and the position it names.
-/

set_option autoImplicit false

namespace Arith

/-- The least index such that the sequence up to and with it is no prefix of an
expression, or the length where the sequence is one. -/
def BreaksAt (tokens : List Token) (index : Nat) : Prop :=
  (Viable tokens ∧ index = tokens.length) ∨
    (index < tokens.length ∧ ¬ Viable (tokens.take (index + 1)) ∧
      ∀ i, i < index → Viable (tokens.take (i + 1)))

/-- The error that belongs to the place where a sequence breaks. There is none at the
end of an expression. -/
def syntaxError? (tokens : List Token) (index : Nat) : Option ParseError :=
  match tokens[index]? with
  | some token =>
    if AwaitsOperand (tokens.take index) then some (.unexpectedToken token.text index)
    else
      match unclosed (tokens.take index) with
      | [] => some (.unexpectedTrailingTokens token.text index)
      | innermost :: _ => some (.expectedClosingParen innermost)
  | none =>
    if AwaitsOperand tokens then some .unexpectedEndOfInput
    else (unclosed tokens).head?.map .expectedClosingParen

def ParseError.isSyntax : ParseError → Bool
  | .unexpectedToken _ _ | .unexpectedEndOfInput | .expectedClosingParen _
  | .unexpectedTrailingTokens _ _ => true
  | .literalTooLarge _ | .nestingTooDeep _ | .expressionTooDeep _ | .evaluation _ => false

theorem Viable.take {tokens : List Token} (viable : Viable tokens) (i : Nat) :
    Viable (tokens.take i) := by
  obtain ⟨more, whole⟩ := viable
  refine ⟨tokens.drop i ++ more, ?_⟩
  rwa [← List.append_assoc, List.take_append_drop]

theorem BreaksAt.unique {tokens : List Token} {first second : Nat}
    (breaksFirst : BreaksAt tokens first) (breaksSecond : BreaksAt tokens second) :
    first = second := by
  rcases breaksFirst with ⟨whole, atEnd⟩ | ⟨bound, broken, least⟩
  · rcases breaksSecond with ⟨-, same⟩ | ⟨-, broken, -⟩
    · rw [atEnd, same]
    · exact absurd (whole.take _) broken
  · rcases breaksSecond with ⟨whole, -⟩ | ⟨otherBound, otherBroken, otherLeast⟩
    · exact absurd (whole.take _) broken
    · rcases Nat.lt_trichotomy first second with less | same | greater
      · exact absurd (otherLeast first less) broken
      · exact same
      · exact absurd (least second greater) otherBroken

theorem breaksAt_length {tokens : List Token} (coherent : Coherent tokens) :
    BreaksAt tokens tokens.length :=
  .inl ⟨(viable_iff_coherent tokens).mpr coherent, rfl⟩

/-- A sequence breaks at the first token that may not follow those before it. -/
theorem breaksAt_refused {read ahead : List Token} {token : Token} (coherent : Coherent read)
    (refused : ¬ MayFollow read token) : BreaksAt (read ++ token :: ahead) read.length := by
  refine .inr ⟨?_, ?_, ?_⟩
  · rw [List.length_append, List.length_cons]
    omega
  · intro viable
    rw [take_right 0, List.take_zero, viable_iff_coherent, coherent_concat] at viable
    exact refused viable.2
  · intro i less
    rw [List.take_append_of_le_length (show i + 1 ≤ read.length from less)]
    exact ((viable_iff_coherent read).mpr coherent).take (i + 1)

theorem exists_refused (tokens : List Token) :
    ∃ read ahead, tokens = read ++ ahead ∧ Coherent read ∧
      ∀ token, ahead.head? = some token → ¬ MayFollow read token := by
  induction tokens using List.reverseRecOn with
  | nil => exact ⟨[], [], rfl, coherent_nil, by simp⟩
  | append_singleton tokens token ih =>
      obtain ⟨read, ahead, rfl, coherent, refused⟩ := ih
      cases ahead with
      | nil =>
          rw [List.append_nil]
          -- Everything before was read; the last token alone decides.
          by_cases follows : MayFollow read token
          · exact ⟨read ++ [token], [], (List.append_nil _).symm,
              (coherent_concat read token).mpr ⟨coherent, follows⟩, by simp⟩
          · refine ⟨read, [token], rfl, coherent, ?_⟩
            intro other head
            cases head
            exact follows
      | cons first others =>
          exact ⟨read, first :: (others ++ [token]), by simp, coherent, refused⟩

theorem exists_breaksAt (tokens : List Token) : ∃ index, BreaksAt tokens index := by
  obtain ⟨read, ahead, rfl, coherent, refused⟩ := exists_refused tokens
  cases ahead with
  | nil =>
      rw [List.append_nil]
      exact ⟨read.length, breaksAt_length coherent⟩
  | cons token ahead => exact ⟨read.length, breaksAt_refused coherent (refused token rfl)⟩

theorem not_inGrammar_of_refused {read ahead : List Token} {token : Token}
    (refused : ¬ MayFollow read token) : ¬ InGrammar (read ++ token :: ahead) := by
  intro whole
  have follows := ((inGrammar_iff _).mp whole).1 read.length token look_middle
  rw [List.take_left] at follows
  exact refused follows

theorem syntaxError?_middle {read ahead : List Token} {token : Token} :
    syntaxError? (read ++ token :: ahead) read.length =
      if AwaitsOperand read then some (.unexpectedToken token.text read.length)
      else
        match unclosed read with
        | [] => some (.unexpectedTrailingTokens token.text read.length)
        | innermost :: _ => some (.expectedClosingParen innermost) := by
  simp only [syntaxError?, look_middle, List.take_left]

theorem syntaxError?_length (tokens : List Token) :
    syntaxError? tokens tokens.length =
      if AwaitsOperand tokens then some .unexpectedEndOfInput
      else (unclosed tokens).head?.map .expectedClosingParen := by
  simp only [syntaxError?, List.getElem?_eq_none (Nat.le_refl tokens.length)]

example : syntaxError? [.openParen, .digit 1, .openParen] 2 = some (.expectedClosingParen 0) := by
  decide

theorem Parser.Rejected.located {read ahead : List Token} {cause : ParseError}
    (rejected : Rejected read ahead cause) (coherent : Coherent read)
    (syntactic : cause.isSyntax = true) :
    BreaksAt (read ++ ahead) read.length ∧ ¬ InGrammar (read ++ ahead) ∧
      syntaxError? (read ++ ahead) read.length = some cause := by
  cases rejected with
  | trailing complete closed refused =>
      refine ⟨breaksAt_refused coherent refused, not_inGrammar_of_refused refused, ?_⟩
      rw [syntaxError?_middle, if_neg complete, closed]
  | stuck stuck =>
      cases stuck with
      | endOfInput awaits =>
          rw [List.append_nil]
          refine ⟨breaksAt_length coherent, ?_, ?_⟩
          · intro whole
            exact ((inGrammar_iff read).mp whole).2.1 awaits
          · rw [syntaxError?_length, if_pos awaits]
      | @unexpected behind token awaits other =>
          -- What cannot begin a factor cannot follow where one is due.
          have refused : ¬ MayFollow read token := by
            cases token with
            | openParen | digit => cases other
            | operator op => exact fun complete => complete awaits
            | closeParen => exact fun follows => follows.1 awaits
          refine ⟨breaksAt_refused coherent refused, not_inGrammar_of_refused refused, ?_⟩
          rw [syntaxError?_middle, if_pos awaits]
      | @notClosed _ position opened complete innermost refused =>
          cases ahead with
          | nil =>
              rw [List.append_nil]
              refine ⟨breaksAt_length coherent, ?_, ?_⟩
              · intro whole
                have closed := ((inGrammar_iff read).mp whole).2.2
                rw [innermost] at closed
                cases closed
              · rw [syntaxError?_length, if_neg complete, innermost]
                rfl
          | cons token behind =>
              have here := refused token rfl
              refine ⟨breaksAt_refused coherent here, not_inGrammar_of_refused here, ?_⟩
              rw [syntaxError?_middle, if_neg complete, innermost]
      | tooNested awaits full => cases syntactic
      | tooLarge awaits ends large => cases syntactic
      | tooDeep => cases syntactic

theorem parseTree_syntaxError {tokens : List Token} {cause : ParseError}
    (error : parseTree tokens = .error cause) (syntactic : cause.isSyntax = true) :
    ∃ index, BreaksAt tokens index ∧ ¬ InGrammar tokens ∧
      syntaxError? tokens index = some cause := by
  obtain ⟨read, ahead, rfl, clean, rejected⟩ := parseTree_error error
  exact ⟨read.length, rejected.located clean.coherent syntactic⟩

theorem parseTree_inGrammar {tokens : List Token} (whole : InGrammar tokens) :
    (∃ expr, parseTree tokens = .ok expr) ∨
      ∃ cause limit, parseTree tokens = .error cause ∧ cause.limit? = some limit := by
  obtain ⟨phrase, rfl⟩ := whole
  rw [parseTree_tokens]
  cases here : phrase.faults 0 0 with
  | nil => exact .inl ⟨_, rfl⟩
  | cons fault others =>
      obtain ⟨limit, detected⟩ := Limit.detected_of_head here
      exact .inr ⟨fault.cause, limit, rfl, detected.limit?_cause⟩

/-- The place where a sequence breaks fixes its syntax error, and an expression has none. -/
theorem syntax_errors_exact (tokens : List Token) :
    (∃ index, BreaksAt tokens index ∧ (∀ other, BreaksAt tokens other → other = index) ∧
      ∀ cause, parseTree tokens = .error cause → cause.isSyntax = true →
        ¬ InGrammar tokens ∧ syntaxError? tokens index = some cause) ∧
    (InGrammar tokens →
      (∃ expr, parseTree tokens = .ok expr) ∨
        ∃ cause limit, parseTree tokens = .error cause ∧ cause.limit? = some limit) := by
  obtain ⟨index, breaks⟩ := exists_breaksAt tokens
  refine ⟨⟨index, breaks, fun other breaksOther => breaksOther.unique breaks, ?_⟩,
    parseTree_inGrammar⟩
  intro cause error syntactic
  obtain ⟨actual, breaksActual, outside, located⟩ := parseTree_syntaxError error syntactic
  rw [breaks.unique breaksActual]
  exact ⟨outside, located⟩

end Arith
