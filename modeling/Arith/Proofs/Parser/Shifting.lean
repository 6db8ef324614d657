import Arith.Proofs.Parser.Steps
import Arith.Proofs.Positions

/-! The rules on tokens that are numbered from elsewhere.

Positions are carried along, and no rule looks at them. Where the numbers of the tokens
are larger by some distance, so are all positions that a rule reports, and nothing else
changes.
-/

set_option autoImplicit false

namespace Arith

def ParseError.mapPosition (f : Nat → Nat) : ParseError → ParseError
  | .unexpectedToken token position => .unexpectedToken token (f position)
  | .unexpectedEndOfInput => .unexpectedEndOfInput
  | .expectedClosingParen position => .expectedClosingParen (f position)
  | .unexpectedTrailingTokens token position => .unexpectedTrailingTokens token (f position)
  | .literalTooLarge position => .literalTooLarge (f position)
  | .nestingTooDeep position => .nestingTooDeep (f position)
  | .expressionTooDeep position => .expressionTooDeep (f position)
  | .evaluation cause => .evaluation (cause.mapPosition f)

namespace Parser

def Reduction.shift (distance : Nat) (reduction : Reduction) : Reduction :=
  { reduction with position := reduction.position + distance }

def State.shift (distance : Nat) (state : State) : State where
  position := state.position + distance
  rest := state.rest
  reductions := state.reductions.map (.shift distance)

def Parsed.shift (distance : Nat) (parsed : Parsed) : Parsed :=
  { parsed with expr := parsed.expr.mapPositions (· + distance) }

def Outcome.shift (distance : Nat) : Outcome → Outcome
  | ⟨.ok parsed, after⟩ => ⟨.ok (parsed.shift distance), after.shift distance⟩
  | ⟨.error cause, after⟩ => ⟨.error (cause.mapPosition (· + distance)), after.shift distance⟩

def Equivariant (distance : Nat) (rule : Rule) : Prop :=
  ∀ state : State, rule (state.shift distance) = (rule state).shift distance

variable {distance : Nat}

@[simp] theorem State.rest_shift (state : State) : (state.shift distance).rest = state.rest :=
  rfl

@[simp] theorem State.position_shift (state : State) :
    (state.shift distance).position = state.position + distance :=
  rfl

theorem State.start_shift (offset : Nat) (tokens : List Token) :
    (start offset tokens).shift distance = start (offset + distance) tokens :=
  rfl

theorem State.advance_shift (state : State) :
    (state.shift distance).advance = state.advance.shift distance := by
  unfold advance
  rw [rest_shift]
  cases state.rest with
  | nil => rfl
  | cons token rest =>
      simp only [shift, mk.injEq, and_true]
      omega

theorem State.reduce_shift (state : State) (op : Operator) (position : Nat) :
    (state.reduce op position).shift distance =
      (state.shift distance).reduce op (position + distance) :=
  rfl

theorem Parsed.join_shift (op : Operator) (left right : Parsed) (position : Nat) :
    (left.join op right position).shift distance =
      (left.shift distance).join op (right.shift distance) (position + distance) :=
  rfl

theorem Outcome.andThen_shift (outcome : Outcome) {next shifted : Parsed → State → Outcome}
    (goesOn : ∀ parsed after,
      shifted (parsed.shift distance) (after.shift distance) = (next parsed after).shift distance) :
    (outcome.shift distance).andThen shifted = (outcome.andThen next).shift distance := by
  obtain ⟨result, after⟩ := outcome
  cases result with
  | error cause => rfl
  | ok parsed => exact goesOn parsed after

theorem foldDigits_shift (value : Int64) (position : Nat) (tokens : List Token) :
    foldDigits value (position + distance) tokens =
      ((foldDigits value position tokens).1, (foldDigits value position tokens).2.1 + distance,
        (foldDigits value position tokens).2.2) := by
  fun_induction foldDigits value position tokens with
  | case1 value position digit rest grown here ih =>
      simp only [foldDigits, here]
      rw [Nat.add_right_comm, ih]
  | case2 value position digit rest here =>
      simp only [foldDigits, here, Prod.mk.injEq, and_true, true_and]
      omega
  | case3 value position tokens other =>
      unfold foldDigits
      split
      · exact absurd rfl (other _ _)
      · rfl

theorem literal_equivariant : Equivariant distance literal := by
  intro state
  unfold literal
  rw [State.position_shift, State.rest_shift, foldDigits_shift]
  obtain ⟨value?, position, rest⟩ := foldDigits 0 state.position state.rest
  cases value? with
  | none => rfl
  | some value => rfl

theorem chainFrom_equivariant (accepts : Operator → Bool) {operand : Rule}
    (equivariant : Equivariant distance operand) (left : Parsed) (state : State) :
    chainFrom accepts operand (left.shift distance) (state.shift distance) =
      (chainFrom accepts operand left state).shift distance := by
  induction left, state using chainFrom_rec accepts with
  | ends left state ends =>
      rw [chainFrom_ends ends, chainFrom_ends (by exact ends)]
      rfl
  | goesOn left state op rest here accepted ih =>
      have shifted : (state.shift distance).rest = .operator op :: rest := here
      rw [chainFrom_accepted here accepted, chainFrom_accepted shifted accepted,
        State.advance_shift, equivariant]
      apply Outcome.andThen_shift
      intro right after
      unfold extend
      rw [State.position_shift, ← Parsed.join_shift, ← State.reduce_shift]
      -- Joined trees have the same depth wherever they stand.
      by_cases shallow : (left.join op right state.position).depth ≤ maxTreeDepth
      · rw [if_pos shallow, if_pos (by exact shallow)]
        exact ih right shallow _
      · rw [if_neg shallow, if_neg (by exact shallow)]
        rfl

theorem chain_equivariant (accepts : Operator → Bool) {operand : Rule}
    (equivariant : Equivariant distance operand) :
    Equivariant distance (chain accepts operand) := by
  intro state
  rw [chain_eq, chain_eq, equivariant]
  exact Outcome.andThen_shift _ (chainFrom_equivariant accepts equivariant)

theorem close_shift (position : Nat) (parsed : Parsed) (after : State) :
    close (position + distance) (parsed.shift distance) (after.shift distance) =
      (close position parsed after).shift distance := by
  unfold close
  rw [State.rest_shift, State.advance_shift]
  split
  · rfl
  · rfl

theorem group_equivariant {inner : Rule} (equivariant : Equivariant distance inner) :
    Equivariant distance (group inner) := by
  intro state
  rw [group_eq, group_eq, State.advance_shift, equivariant]
  exact Outcome.andThen_shift _ (close_shift state.position)

theorem factorOf_equivariant {group : Rule} (equivariant : Equivariant distance group) :
    Equivariant distance (factorOf group) := by
  intro state
  unfold factorOf
  rw [State.rest_shift]
  cases state.rest with
  | nil => rfl
  | cons token rest =>
      cases token with
      | digit digit => exact literal_equivariant state
      | openParen => exact equivariant state
      | closeParen | operator => rfl

theorem equivariant_compositional : Compositional (Equivariant distance) where
  tooNested _ := rfl
  factorOf := factorOf_equivariant
  group := group_equivariant
  chain := chain_equivariant

/-- Numbering the tokens from further on makes every position of the answer larger by the
distance, be it in the tree, in the error or behind what was consumed, and nothing else. The
tree evaluates as before, with its error's position larger as well. -/
theorem shifting_exact (nesting offset distance : Nat) (tokens : List Token) :
    expression nesting (.start (offset + distance) tokens) =
        (expression nesting (.start offset tokens)).shift distance ∧
      term nesting (.start (offset + distance) tokens) =
        (term nesting (.start offset tokens)).shift distance ∧
      ∀ parsed : Parsed, (parsed.shift distance).depth = parsed.depth ∧
        (parsed.shift distance).expr.evaluate =
          parsed.expr.evaluate.mapError (EvalError.mapPosition (· + distance)) := by
  rw [← State.start_shift]
  refine ⟨equivariant_compositional.expression nesting _,
    equivariant_compositional.term nesting _, ?_⟩
  intro parsed
  exact ⟨rfl, parsed.expr.evaluate_mapPositions (· + distance)⟩

end Parser

end Arith
