import Arith.Lexing
import Arith.Proofs.Parser.Cursor
import Arith.Proofs.Parser.Progress

/-! The rules where fewer parentheses are open already.

Only a parenthesis too many tells a rule how many are open. With fewer of them open a
rule gives the same answer, unless the answer was such a parenthesis: then the rule reads
on from there, and whatever parenthesis is one too many now stands further on.
-/

set_option autoImplicit false

namespace Arith.Parser

/-- With more room an answer stays as it is, or it was a parenthesis too many and the rule
reads on. -/
def Outcome.WidensTo (narrow wide : Outcome) : Prop :=
  wide = narrow ∨
    (∃ position, narrow.result = .error (.nestingTooDeep position)) ∧
      narrow.after.Reaches wide.after

def Widens (narrow wide : Rule) : Prop :=
  ∀ state, (narrow state).WidensTo (wide state)

structure Outcome.Relaxes (strict lax : Outcome) : Prop where
  same : (∀ position, strict.result ≠ .error (.nestingTooDeep position)) → lax = strict
  /-- No fewer tokens are consumed, and no parenthesis before is one too many. -/
  further : ∀ position, strict.result = .error (.nestingTooDeep position) →
    strict.after.Reaches lax.after ∧
      ∀ other, lax.result = .error (.nestingTooDeep other) → position ≤ other

theorem Outcome.reaches_andThen (outcome : Outcome) {next : Parsed → State → Outcome}
    (progressive : ∀ parsed, Progressive (next parsed)) :
    outcome.after.Reaches (outcome.andThen next).after := by
  obtain ⟨result, after⟩ := outcome
  cases result with
  | error cause => exact .refl after
  | ok parsed => exact (progressive parsed after).reaches

theorem Outcome.WidensTo.refl (outcome : Outcome) : outcome.WidensTo outcome :=
  .inl rfl

theorem Outcome.WidensTo.andThen {narrow wide : Outcome} {next wider : Parsed → State → Outcome}
    (widens : narrow.WidensTo wide) (goesOn : ∀ parsed, Widens (next parsed) (wider parsed))
    (progressive : ∀ parsed, Progressive (wider parsed)) :
    (narrow.andThen next).WidensTo (wide.andThen wider) := by
  rcases widens with rfl | ⟨⟨position, refused⟩, reaches⟩
  · obtain ⟨result, after⟩ := wide
    cases result with
    | error cause => exact .refl _
    | ok parsed => exact goesOn parsed after
  · -- The refusal is passed on, wherever the wider rule goes from there.
    have further := reaches.trans (wide.reaches_andThen progressive)
    obtain ⟨result, after⟩ := narrow
    cases refused
    exact .inr ⟨⟨position, rfl⟩, further⟩

/-- Refusing a parenthesis leaves everything to a rule that does not. -/
theorem tooNested_widens {rule : Rule} (progressive : Progressive rule) :
    Widens tooNested rule :=
  fun state => .inr ⟨⟨state.position, rfl⟩, (progressive state).reaches⟩

section
variable {accepts : Operator → Bool} {narrow wide : Rule}

theorem extend_widens {op : Operator} {left right : Parsed} {position : Nat}
    (joined : (left.join op right position).depth ≤ maxTreeDepth →
      Widens (chainFrom accepts narrow (left.join op right position))
        (chainFrom accepts wide (left.join op right position))) :
    Widens (extend accepts narrow op left position right)
      (extend accepts wide op left position right) := by
  intro after
  unfold extend
  split
  · rename_i shallow
    exact joined shallow _
  · exact .refl _

theorem chainFrom_widens (widens : Widens narrow wide) (progressive : Progressive wide)
    (left : Parsed) : Widens (chainFrom accepts narrow left) (chainFrom accepts wide left) := by
  intro state
  induction left, state using chainFrom_rec accepts with
  | ends left state ends =>
      rw [chainFrom_ends ends, chainFrom_ends ends]
      exact .refl _
  | goesOn left state op rest here accepted ih =>
      rw [chainFrom_accepted here accepted, chainFrom_accepted here accepted]
      apply (widens state.advance).andThen
      · exact fun right => extend_widens (ih right)
      · exact fun right => extend_progressive fun _ => chainFrom_progressive progressive _

theorem chain_widens (widens : Widens narrow wide) (progressive : Progressive wide) :
    Widens (chain accepts narrow) (chain accepts wide) := by
  intro state
  rw [chain_eq, chain_eq]
  exact (widens state).andThen (chainFrom_widens widens progressive)
    (chainFrom_progressive progressive)

theorem group_widens (widens : Widens narrow wide) : Widens (group narrow) (group wide) := by
  intro state
  rw [group_eq, group_eq]
  exact (widens state.advance).andThen (fun parsed after => .refl _)
    (close_progressive state.position)

theorem factorOf_widens (widens : Widens narrow wide) :
    Widens (factorOf narrow) (factorOf wide) := by
  intro state
  unfold factorOf
  cases state.rest with
  | nil => exact .refl _
  | cons token rest =>
      cases token with
      | openParen => exact widens state
      | digit | closeParen | operator => exact .refl _

end

theorem termOf_widens {narrow wide : Rule} (widens : Widens narrow wide)
    (progressive : Progressive wide) : Widens (termOf narrow) (termOf wide) :=
  chain_widens widens progressive

theorem expressionOf_widens {narrow wide : Rule} (widens : Widens narrow wide)
    (progressive : Progressive wide) : Widens (expressionOf narrow) (expressionOf wide) :=
  chain_widens (termOf_widens widens progressive)
    (progressive_compositional.termOf progressive)

theorem factor_widens {fewer more : Nat} (le : fewer ≤ more) :
    Widens (factor fewer) (factor more) := by
  induction fewer generalizing more with
  | zero =>
      cases more with
      | zero => exact fun state => .refl _
      | succ more =>
          -- Here the rules part: one refuses the parenthesis, the other reads the group.
          have inner := progressive_compositional.expressionOf
            (progressive_compositional.factor more)
          exact factorOf_widens (tooNested_widens (group_progressive inner))
  | succ fewer ih =>
      obtain ⟨more, rfl⟩ := Nat.exists_eq_add_one_of_ne_zero (Nat.ne_zero_of_lt le)
      have widens := ih (Nat.le_of_succ_le_succ le)
      exact factorOf_widens
        (group_widens (expressionOf_widens widens (progressive_compositional.factor more)))

theorem Consumes.position_of_nestingTooDeep {category : Category} {state : State}
    {outcome : Outcome} (consumed : Consumes category state outcome) {position : Nat}
    (refused : outcome.result = .error (.nestingTooDeep position)) :
    outcome.after.position = position := by
  obtain ⟨result, after⟩ := outcome
  cases refused
  obtain ⟨read, -, place, stops⟩ := consumed
  generalize after.rest = ahead at stops
  cases stops with
  | nestingTooDeep => exact place

theorem Widens.relaxes {category : Category} {narrow wide : Rule} (widens : Widens narrow wide)
    (narrowConsumes : ∀ state, Consumes category state (narrow state))
    (wideConsumes : ∀ state, Consumes category state (wide state)) (state : State) :
    (narrow state).Relaxes (wide state) := by
  rcases widens state with same | ⟨⟨position, refused⟩, reaches⟩
  · rw [same]
    refine ⟨fun _ => rfl, ?_⟩
    intro position refused
    refine ⟨.refl _, ?_⟩
    intro other again
    rw [refused] at again
    cases again
    exact Nat.le_refl _
  · refine ⟨fun kept => absurd refused (kept position), ?_⟩
    intro place there
    refine ⟨reaches, ?_⟩
    intro other again
    have le := reaches.le
    rwa [(narrowConsumes state).position_of_nestingTooDeep there,
      (wideConsumes state).position_of_nestingTooDeep again] at le

/-- How many parentheses are open already matters only to a parenthesis that is one too many:
with fewer open the answer is the same, or such a parenthesis is passed. From the limit on
all numbers are alike. -/
theorem nesting_exact {fewer nesting : Nat} (le : fewer ≤ nesting) (state : State) :
    (expression nesting state).Relaxes (expression fewer state) ∧
      (term nesting state).Relaxes (term fewer state) ∧
      ∀ full other, maxNesting ≤ full → maxNesting ≤ other →
        expression full = expression other ∧ term full = term other := by
  have widens : Widens (factor (maxNesting - nesting)) (factor (maxNesting - fewer)) :=
    factor_widens (Nat.sub_le_sub_left le maxNesting)
  have progressive := progressive_compositional.factor (maxNesting - fewer)
  refine ⟨?_, ?_, ?_⟩
  · exact (expressionOf_widens widens progressive).relaxes (rule_consumes .expression _)
      (rule_consumes .expression _) state
  · exact (termOf_widens widens progressive).relaxes (rule_consumes .term _)
      (rule_consumes .term _) state
  · intro full other atLimit otherAtLimit
    unfold expression term
    rw [Nat.sub_eq_zero_of_le atLimit, Nat.sub_eq_zero_of_le otherAtLimit]
    exact ⟨rfl, rfl⟩

/-- Of two parentheses the first is refused where 256 are open, the second where 255 are. -/
theorem nesting_second_parenthesis :
    255 ≤ 256 ∧
    expression 256 (.start 0 (lex "((1))")) =
      ⟨.error (.nestingTooDeep 0), .start 0 (lex "((1))")⟩ ∧
    expression 255 (.start 0 (lex "((1))")) =
      ⟨.error (.nestingTooDeep 1), .start 1 (lex "(1))")⟩ ∧
    (State.start 0 (lex "((1))")).Reaches (.start 1 (lex "(1))")) ∧ 0 ≤ 1 := by
  have less : 255 ≤ 256 := by decide
  have strict : expression 256 (.start 0 (lex "((1))")) =
      ⟨.error (.nestingTooDeep 0), .start 0 (lex "((1))")⟩ := rfl
  have lax : expression 255 (.start 0 (lex "((1))")) =
      ⟨.error (.nestingTooDeep 1), .start 1 (lex "(1))")⟩ := rfl
  have relaxes := (nesting_exact less (.start 0 (lex "((1))"))).1
  rw [strict, lax] at relaxes
  obtain ⟨reaches, later⟩ := relaxes.further 0 rfl
  exact ⟨less, strict, lax, reaches, later 1 rfl⟩

end Arith.Parser
