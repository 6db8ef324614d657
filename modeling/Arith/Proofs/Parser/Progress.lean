import Arith.Proofs.Parser.Steps

/-! Rules consume tokens from the front and never give any back.

What a rule leaves is what stood behind the tokens that it consumed, and its position
counts these. Two kinds of error are found at a token that has been consumed, all others
at a token that is only looked at, or behind a complete operand.
-/

set_option autoImplicit false

namespace Arith

/-- Errors that are found at a token once it is consumed, if there is one. -/
def ParseError.atConsumed : ParseError → Bool
  | .literalTooLarge _ | .expectedClosingParen _ => true
  | _ => false

namespace Parser

def State.Reaches (state after : State) : Prop :=
  ∃ read, state.rest = read ++ after.rest ∧ after.position = state.position + read.length

namespace State.Reaches

variable {state middle after : State}

theorem refl (state : State) : state.Reaches state :=
  ⟨[], rfl, rfl⟩

theorem trans (first : state.Reaches middle) (second : middle.Reaches after) :
    state.Reaches after := by
  obtain ⟨read, rest, position⟩ := first
  obtain ⟨further, restBehind, positionBehind⟩ := second
  refine ⟨read ++ further, ?_, ?_⟩
  · rw [rest, restBehind, List.append_assoc]
  · rw [positionBehind, position, List.length_append, Nat.add_assoc]

theorem advance (state : State) : state.Reaches state.advance := by
  unfold State.advance
  split
  · exact refl state
  · rename_i token rest here
    exact ⟨[token], here, rfl⟩

theorem le (reaches : state.Reaches after) : state.position ≤ after.position := by
  obtain ⟨read, -, position⟩ := reaches
  omega

theorem length_rest (reaches : state.Reaches after) :
    after.position + after.rest.length = state.position + state.rest.length := by
  obtain ⟨read, rest, position⟩ := reaches
  rw [position, rest, List.length_append, Nat.add_assoc]

end State.Reaches

theorem State.position_advance {state : State} (more : state.rest ≠ []) :
    state.advance.position = state.position + 1 := by
  obtain ⟨token, rest, here⟩ := List.exists_cons_of_ne_nil more
  simp only [advance, here]

/-- An answer that lies at the state or behind it. An error that is found at a consumed token
lies behind it, unless there was nothing to consume. -/
structure Progress (state : State) (outcome : Outcome) : Prop where
  reaches : state.Reaches outcome.after
  strict : ∀ cause, outcome.result = .error cause → cause.atConsumed = true →
    state.rest ≠ [] → state.position < outcome.after.position

def Progressive (rule : Rule) : Prop :=
  ∀ state, Progress state (rule state)

namespace Progress

variable {state middle : State} {outcome : Outcome}

theorem ok (parsed : Parsed) (reaches : state.Reaches middle) :
    Progress state ⟨.ok parsed, middle⟩ :=
  ⟨reaches, by simp⟩

theorem error {cause : ParseError} (reaches : state.Reaches middle)
    (looking : cause.atConsumed = false) : Progress state ⟨.error cause, middle⟩ := by
  refine ⟨reaches, ?_⟩
  intro actual same consumed
  cases same
  rw [looking] at consumed
  cases consumed

theorem behind (reaches : state.Reaches middle) (progress : Progress middle outcome) :
    Progress state outcome := by
  refine ⟨reaches.trans progress.reaches, ?_⟩
  intro cause failed consumed more
  by_cases atEnd : middle.rest = []
  · -- Whatever there was to consume has been consumed on the way.
    have first := reaches.length_rest
    have second := progress.reaches.le
    have pos := List.length_pos_iff.mpr more
    rw [atEnd, List.length_nil] at first
    omega
  · have first := reaches.le
    have second := progress.strict cause failed consumed atEnd
    omega

theorem andThen {next : Parsed → State → Outcome} (progress : Progress state outcome)
    (goesOn : ∀ parsed, Progressive (next parsed)) : Progress state (outcome.andThen next) := by
  obtain ⟨result, after⟩ := outcome
  cases result with
  | error cause => exact progress
  | ok parsed => exact behind progress.reaches (goesOn parsed after)

end Progress

/-- A literal is read beyond every place where its digits have been folded in part. -/
theorem literal_progress {state middle : State} {value : Int64}
    (runsOn : foldDigits 0 state.position state.rest =
      foldDigits value middle.position middle.rest) : Progress middle (literal state) := by
  have reads := foldDigits_reads value middle.position middle.rest
  unfold literal
  rw [runsOn]
  generalize foldDigits value middle.position middle.rest = folded at reads ⊢
  obtain ⟨value?, position, rest⟩ := folded
  obtain ⟨read, split, place, consumed⟩ := reads
  have reaches : middle.Reaches { state with position, rest } := ⟨read, split, place⟩
  cases value? with
  | some value => exact .ok _ reaches
  | none =>
      -- The digit with which the value overflowed has been consumed.
      refine ⟨reaches, ?_⟩
      intro cause failed atConsumed more
      have pos := List.length_pos_iff.mpr (consumed rfl)
      simp only at place ⊢
      omega

theorem close_progressive (position : Nat) (parsed : Parsed) :
    Progressive (close position parsed) := by
  intro after
  unfold close
  split
  · exact .ok _ (.advance after)
  · refine ⟨.advance after, ?_⟩
    intro cause failed atConsumed more
    rw [State.position_advance more]
    exact Nat.lt_succ_self _

section
variable {accepts : Operator → Bool} {operand : Rule}

theorem extend_progressive {op : Operator} {left right : Parsed} {position : Nat}
    (joined : (left.join op right position).depth ≤ maxTreeDepth →
      Progressive (chainFrom accepts operand (left.join op right position))) :
    Progressive (extend accepts operand op left position right) := by
  intro after
  have reduced : after.Reaches (after.reduce op position) := ⟨[], rfl, rfl⟩
  unfold extend
  split
  · rename_i shallow
    exact .behind reduced (joined shallow _)
  · exact .error (.refl after) rfl

theorem chainFrom_progressive (progressive : Progressive operand) (left : Parsed) :
    Progressive (chainFrom accepts operand left) := by
  intro state
  induction left, state using chainFrom_rec accepts with
  | ends left state ends =>
      rw [chainFrom_ends ends]
      exact .ok _ (.refl state)
  | goesOn left state op rest here accepted ih =>
      rw [chainFrom_accepted here accepted]
      have advanced := Progress.behind (.advance state) (progressive state.advance)
      exact advanced.andThen fun right => extend_progressive (ih right)

theorem chain_progressive (progressive : Progressive operand) :
    Progressive (chain accepts operand) := by
  intro state
  rw [chain_eq]
  exact (progressive state).andThen (chainFrom_progressive progressive)

theorem group_progressive {inner : Rule} (progressive : Progressive inner) :
    Progressive (group inner) := by
  intro state
  rw [group_eq]
  exact (Progress.behind (.advance state) (progressive state.advance)).andThen
    (close_progressive state.position)

theorem factorOf_progressive {group : Rule} (progressive : Progressive group) :
    Progressive (factorOf group) := by
  intro state
  unfold factorOf
  cases state.rest with
  | nil => exact .error (.refl state) rfl
  | cons token rest =>
      cases token with
      | digit digit => exact literal_progress rfl
      | openParen => exact progressive state
      | closeParen | operator => exact .error (.refl state) rfl

theorem progressive_compositional : Compositional Progressive where
  tooNested state := .error (.refl state) rfl
  factorOf := factorOf_progressive
  group := group_progressive
  chain _ := chain_progressive

end

end Parser

end Arith
