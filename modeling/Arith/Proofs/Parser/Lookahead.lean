import Arith.Lexing
import Arith.Proofs.Parser.Cursor
import Arith.Proofs.Parser.Progress

/-! One token of lookahead.

The answer of a rule depends on the tokens that it consumes and on the next one, if it
looks at that at all. For a given beginning of the tokens a rule either answers the same
whatever follows, or it consumes the whole of it whatever follows: `FramedAt` says this
of a beginning, and it passes from the parts of a rule to the rule.
-/

set_option autoImplicit false

namespace Arith.Parser

def State.append (state : State) (ahead : List Token) : State :=
  { state with rest := state.rest ++ ahead }

def Outcome.append (outcome : Outcome) (ahead : List Token) : Outcome :=
  { outcome with after := outcome.after.append ahead }

def Outcome.leaving (outcome : Outcome) (rest : List Token) : Outcome :=
  { outcome with after := { outcome.after with rest } }

/-- The answer lies where the last tokens begin or behind that. -/
def Outcome.Beyond (outcome : Outcome) (ahead : List Token) : Prop :=
  ∃ middle : State, middle.rest = ahead ∧ Progress middle outcome

/-- Whatever stands behind the tokens of the state, the rule answers as if nothing did, or
it consumes all these tokens. -/
def FramedAt (rule : Rule) (state : State) : Prop :=
  (∀ ahead, rule (state.append ahead) = (rule state).append ahead) ∨
    ∀ ahead, (rule (state.append ahead)).Beyond ahead

def Framed (rule : Rule) : Prop :=
  ∀ state, FramedAt rule state

/-- Behind the same consumed tokens and the same next token the rule gives the same answer.
If it found its error at the last of the consumed tokens, then that token closes no
parenthesis, and the next one is not looked at. -/
def LooksOneAhead (rule : Rule) : Prop :=
  ∀ (position : Nat) (made : List Reduction) (read behind : List Token) (token : Token)
    (outcome : Outcome), rule ⟨position, read ++ token :: behind, made⟩ = outcome →
    outcome.after.rest = token :: behind →
      (∀ other, rule ⟨position, read ++ token :: other, made⟩ = outcome.leaving (token :: other)) ∧
      ∀ cause, outcome.result = .error cause → cause.atConsumed = true →
        (∃ last, read.getLast? = some last ∧ last ≠ .closeParen) ∧
        ∀ ahead, rule ⟨position, read ++ ahead, made⟩ = outcome.leaving ahead

section
variable {state : State} {ahead : List Token}

@[simp] theorem State.append_nil (state : State) : state.append [] = state := by
  rw [append, List.append_nil]

theorem State.rest_append_of_nil (nothing : state.rest = []) : (state.append ahead).rest = ahead := by
  rw [append, nothing, List.nil_append]

theorem State.rest_append_of_cons {token : Token} {rest : List Token}
    (here : state.rest = token :: rest) : (state.append ahead).rest = token :: (rest ++ ahead) := by
  rw [append, here, List.cons_append]

theorem State.advance_append {token : Token} {rest : List Token}
    (here : state.rest = token :: rest) :
    (state.append ahead).advance = state.advance.append ahead := by
  rw [advance_eq here, advance_eq (rest_append_of_cons here)]
  rfl

theorem Outcome.Beyond.length_le {outcome : Outcome} (beyond : outcome.Beyond ahead) :
    outcome.after.rest.length ≤ ahead.length := by
  obtain ⟨middle, rfl, progress⟩ := beyond
  have length := progress.reaches.length_rest
  have le := progress.reaches.le
  omega

/-- An error that is found at a consumed token is found behind where the last tokens begin. -/
theorem Outcome.Beyond.ne_of_atConsumed {outcome : Outcome} (beyond : outcome.Beyond ahead)
    {cause : ParseError} (failed : outcome.result = .error cause)
    (consumed : cause.atConsumed = true) (more : ahead ≠ []) : outcome.after.rest ≠ ahead := by
  obtain ⟨middle, rfl, progress⟩ := beyond
  have further := progress.strict cause failed consumed more
  have length := progress.reaches.length_rest
  intro same
  rw [same] at length
  omega

namespace FramedAt

variable {rule other : Rule}

/-- Where nothing is left, whatever follows is what the rule starts with. -/
theorem of_nil (progressive : Progressive rule) (nothing : state.rest = []) :
    FramedAt rule state :=
  .inr fun ahead => ⟨state.append ahead, State.rest_append_of_nil nothing, progressive _⟩

theorem congr {start : State}
    (same : ∀ ahead, rule (state.append ahead) = other (start.append ahead))
    (framed : FramedAt other start) : FramedAt rule state := by
  have alone := same []
  rw [State.append_nil, State.append_nil] at alone
  rcases framed with frame | beyond
  · refine .inl fun ahead => ?_
    rw [same, alone, frame]
  · refine .inr fun ahead => ?_
    rw [same]
    exact beyond ahead

theorem andThen {next : Parsed → State → Outcome} (framed : FramedAt rule state)
    (progressive : ∀ parsed, Progressive (next parsed)) (goesOn : ∀ parsed, Framed (next parsed)) :
    FramedAt (fun state => (rule state).andThen next) state := by
  rcases framed with frame | beyond
  · -- The first part is the same in all runs; what goes on from it is framed where it stops.
    unfold FramedAt
    simp only [frame]
    obtain ⟨result, after⟩ := rule state
    cases result with
    | error cause => exact .inl fun ahead => rfl
    | ok parsed => exact goesOn parsed after
  · refine .inr fun ahead => ?_
    obtain ⟨middle, here, progress⟩ := beyond ahead
    exact ⟨middle, here, progress.andThen progressive⟩

end FramedAt

end

theorem foldDigits_append (value : Int64) (position : Nat) (tokens : List Token) :
    (∀ ahead, foldDigits value position (tokens ++ ahead) =
      ((foldDigits value position tokens).1, (foldDigits value position tokens).2.1,
        (foldDigits value position tokens).2.2 ++ ahead)) ∨
    ∃ grown place, ∀ ahead,
      foldDigits value position (tokens ++ ahead) = foldDigits grown place ahead := by
  fun_induction foldDigits value position tokens with
  | case1 value position digit rest grown here ih =>
      simp only [List.cons_append, foldDigits, here]
      exact ih
  | case2 value position digit rest here =>
      left
      intro ahead
      simp only [List.cons_append, foldDigits, here]
  | case3 value position tokens other =>
      cases tokens with
      | nil => exact .inr ⟨value, position, fun ahead => rfl⟩
      | cons token rest =>
          left
          intro ahead
          cases token with
          | digit digit => exact absurd rfl (other digit rest)
          | openParen | closeParen | operator => rfl

theorem literal_framed : Framed literal := by
  intro state
  rcases foldDigits_append 0 state.position state.rest with frame | ⟨grown, place, runsOn⟩
  · refine .inl fun ahead => ?_
    simp only [literal, State.append, frame]
    obtain ⟨value?, position, rest⟩ := foldDigits 0 state.position state.rest
    cases value? with
    | none => rfl
    | some value => rfl
  · -- The literal is not over at the end of the tokens, and is read beyond it.
    exact .inr fun ahead => ⟨⟨place, ahead, []⟩, rfl, literal_progress (runsOn ahead)⟩

theorem close_framed (position : Nat) (parsed : Parsed) : Framed (close position parsed) := by
  intro after
  cases here : after.rest with
  | nil => exact .of_nil (close_progressive position parsed) here
  | cons token rest =>
      refine .inl fun ahead => ?_
      unfold close
      rw [State.advance_append here, State.rest_append_of_cons here, here]
      cases token <;> rfl

section
variable {accepts : Operator → Bool} {operand inner group : Rule}

theorem extend_framed {op : Operator} {left right : Parsed} {position : Nat}
    (joined : (left.join op right position).depth ≤ maxTreeDepth →
      Framed (chainFrom accepts operand (left.join op right position))) :
    Framed (extend accepts operand op left position right) := by
  intro after
  unfold FramedAt extend
  split
  · rename_i shallow
    exact joined shallow (after.reduce op position)
  · exact .inl fun ahead => rfl

theorem chainFrom_framed (progressive : Progressive operand) (framed : Framed operand)
    (left : Parsed) : Framed (chainFrom accepts operand left) := by
  intro state
  induction left, state using chainFrom_rec accepts with
  | ends left state ends =>
      -- At the end of the tokens an operator may follow that goes on with the loop.
      cases here : state.rest with
      | nil => exact .of_nil (chainFrom_progressive progressive left) here
      | cons token rest =>
          refine .inl fun ahead => ?_
          rw [chainFrom_ends ends, chainFrom_ends]
          · rfl
          · rw [here] at ends
            rw [State.rest_append_of_cons here]
            exact ends
  | goesOn left state op rest here accepted ih =>
      have behind := (framed state.advance).andThen
        (fun right => extend_progressive fun _ => chainFrom_progressive progressive _)
        fun right => extend_framed (ih right)
      apply behind.congr
      intro ahead
      rw [chainFrom_accepted (State.rest_append_of_cons here) accepted,
        State.advance_append here]
      rfl

theorem chain_framed (progressive : Progressive operand) (framed : Framed operand) :
    Framed (chain accepts operand) := by
  intro state
  have goesOn : ∀ left, Progressive (chainFrom accepts operand left) :=
    chainFrom_progressive progressive
  have behind := (framed state).andThen goesOn (chainFrom_framed progressive framed)
  exact behind.congr fun ahead => chain_eq accepts operand (state.append ahead)

theorem group_framed (progressive : Progressive inner) (framed : Framed inner) :
    Framed (Parser.group inner) := by
  intro state
  cases here : state.rest with
  | nil => exact .of_nil (group_progressive progressive) here
  | cons token rest =>
      have behind := (framed state.advance).andThen (close_progressive state.position)
        (close_framed state.position)
      apply behind.congr
      intro ahead
      rw [group_eq, State.advance_append here]
      rfl

theorem factorOf_framed (progressive : Progressive group) (framed : Framed group) :
    Framed (factorOf group) := by
  intro state
  cases here : state.rest with
  | nil => exact .of_nil (factorOf_progressive progressive) here
  | cons token rest =>
      have head : ∀ ahead, (state.append ahead).rest = token :: (rest ++ ahead) :=
        fun ahead => State.rest_append_of_cons here
      cases token with
      | digit digit =>
          refine (literal_framed state).congr fun ahead => ?_
          simp only [factorOf, head]
      | openParen =>
          refine (framed state).congr fun ahead => ?_
          simp only [factorOf, head]
      | closeParen | operator =>
          refine .inl fun ahead => ?_
          simp only [factorOf, head, here]
          rfl

theorem framed_compositional : Compositional fun rule => Progressive rule ∧ Framed rule where
  tooNested := ⟨progressive_compositional.tooNested, fun _ => .inl fun _ => rfl⟩
  factorOf parts := ⟨factorOf_progressive parts.1, factorOf_framed parts.1 parts.2⟩
  group parts := ⟨group_progressive parts.1, group_framed parts.1 parts.2⟩
  chain _ _ parts := ⟨chain_progressive parts.1, chain_framed parts.1 parts.2⟩

end

section
variable {rule : Rule} {position : Nat} {made : List Reduction} {read behind : List Token}
  {token : Token} {outcome : Outcome}

/-- The next token is the last that matters. -/
theorem Framed.leaving_next (framed : Framed rule)
    (answered : rule ⟨position, read ++ token :: behind, made⟩ = outcome)
    (left : outcome.after.rest = token :: behind) (other : List Token) :
    rule ⟨position, read ++ token :: other, made⟩ = outcome.leaving (token :: other) := by
  subst answered
  -- The beginning is taken with the next token, which the rule leaves: it does not run on.
  rw [List.append_cons read token behind] at left ⊢
  rw [List.append_cons read token other]
  rcases framed ⟨position, read ++ [token], made⟩ with frame | beyond
  · have here := frame behind
    simp only [State.append] at here frame
    rw [here] at left ⊢
    rw [frame]
    have stays : (rule ⟨position, read ++ [token], made⟩).after.rest = [token] :=
      List.append_cancel_right left
    simp only [Outcome.append, State.append, Outcome.leaving, stays, List.singleton_append]
  · have bound := (beyond behind).length_le
    simp only [State.append, left, List.length_cons] at bound
    omega

/-- An error that is found at a consumed token does not depend on the next one. -/
theorem Framed.leaving_any (framed : Framed rule)
    (answered : rule ⟨position, read ++ token :: behind, made⟩ = outcome)
    (left : outcome.after.rest = token :: behind) {cause : ParseError}
    (failed : outcome.result = .error cause) (consumed : cause.atConsumed = true)
    (ahead : List Token) : rule ⟨position, read ++ ahead, made⟩ = outcome.leaving ahead := by
  subst answered
  -- The beginning is taken without the next token: an error there would lie behind that.
  rcases framed ⟨position, read, made⟩ with frame | beyond
  · have here := frame (token :: behind)
    simp only [State.append] at here frame
    rw [here] at left ⊢
    rw [frame]
    have stays : (rule ⟨position, read, made⟩).after.rest = [] :=
      List.append_left_eq_self.mp left
    simp only [Outcome.append, State.append, Outcome.leaving, stays, List.nil_append]
  · exact absurd left ((beyond (token :: behind)).ne_of_atConsumed failed consumed
      (List.cons_ne_nil _ _))

/-- What stands last among the consumed tokens does not close a parenthesis: it is a digit, or
the token found in place of a closing parenthesis. -/
theorem StopsAt.last_consumed {base : Nat} {cause : ParseError}
    (stops : StopsAt base read (token :: behind) cause) (consumed : cause.atConsumed = true) :
    ∃ last, read.getLast? = some last ∧ last ≠ .closeParen := by
  cases stops with
  | @literalTooLarge _ _ start i digits run grows last =>
      have bound := grows.bound
      have here := run.at_index bound
      rw [List.getElem?_append_left (by omega)] at here
      refine ⟨.digit digits[i], ?_, by simp⟩
      rw [List.getLast?_eq_getElem?, last, Nat.add_sub_cancel, here]
  | @notClosed before _ found inner continuing closing =>
      refine ⟨found, ?_, closing⟩
      rw [getLast?_behind (by simp), List.getLast?_concat]
  | unexpectedToken | nestingTooDeep | expressionTooDeep => cases consumed

theorem Framed.looksOneAhead {category : Category} (framed : Framed rule)
    (consumes : ∀ state, Consumes category state (rule state)) : LooksOneAhead rule := by
  intro position made read behind token outcome answered left
  refine ⟨framed.leaving_next answered left, ?_⟩
  intro cause failed consumed
  refine ⟨?_, framed.leaving_any answered left failed consumed⟩
  have stopped := consumes ⟨position, read ++ token :: behind, made⟩
  obtain ⟨result, after⟩ := outcome
  cases failed
  rw [answered] at stopped
  obtain ⟨taken, split, -, stops⟩ := stopped
  simp only at left split
  rw [left] at split stops
  rw [List.append_cancel_right split]
  exact stops.last_consumed consumed

end

/-- Wherever a rule starts and however many parentheses are open, its answer depends on the
tokens that it consumes and on one more; on that one too only where no consumed token is
at fault. -/
theorem lookahead_exact (nesting : Nat) :
    LooksOneAhead (expression nesting) ∧ LooksOneAhead (term nesting) := by
  have expressions := (framed_compositional.expression nesting).2
  have terms := (framed_compositional.term nesting).2
  exact ⟨expressions.looksOneAhead (rule_consumes .expression _),
    terms.looksOneAhead (rule_consumes .term _)⟩

theorem lookahead_overflowing_literal :
    expression 0 (.start 0 (lex "9223372036854775808*7")) =
      ⟨.error (.literalTooLarge 0), .start 19 (lex "*7")⟩ ∧
    expression 0 (.start 0 (lex "9223372036854775808*(")) =
      ⟨.error (.literalTooLarge 0), .start 19 (lex "*(")⟩ ∧
    expression 0 (.start 0 (lex "9223372036854775808)")) =
      ⟨.error (.literalTooLarge 0), .start 19 (lex ")")⟩ := by
  have answered : expression 0 (.start 0 (lex "9223372036854775808*7")) =
      ⟨.error (.literalTooLarge 0), .start 19 (lex "*7")⟩ := rfl
  obtain ⟨next, whole⟩ := (lookahead_exact 0).1 0 [] (lex "9223372036854775808") [.digit 7]
    (.operator .mul) _ answered rfl
  have any := (whole (.literalTooLarge 0) rfl rfl).2
  exact ⟨answered, next [.openParen], any [.closeParen]⟩

end Arith.Parser
