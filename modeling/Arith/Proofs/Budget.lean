import Arith.Lexing
import Arith.Proofs.Depth
import Arith.Proofs.Levels
import Arith.Proofs.Parser.Progress

/-! The rules with a budget for the groups that they may be inside of.

A rule with a budget passes one less of it to the expression inside a group, and gives up
where a group comes next and nothing is left. A repetition may go through as many rounds as
there are tokens. The parentheses that may still be opened are budget enough, whatever the
tokens are, and with any less there are tokens on which the rules give up.
-/

set_option autoImplicit false

namespace Arith.Budgeted

open Arith.Parser (State Parsed Outcome)

inductive Shortage where
  | groups
  | rounds
  deriving DecidableEq, Repr

abbrev Answer := Except Shortage Outcome

abbrev Rule := State → Answer

def Answer.andThen (answer : Answer) (next : Parsed → State → Answer) : Answer :=
  match answer with
  | .error shortage => .error shortage
  | .ok ⟨.error cause, after⟩ => .ok ⟨.error cause, after⟩
  | .ok ⟨.ok parsed, after⟩ => next parsed after

def chainFrom (accepts : Operator → Bool) (operand : Rule) (rounds : Nat) (left : Parsed)
    (state : State) : Answer :=
  match state.rest with
  | .operator op :: _ =>
    if accepts op then
      match rounds with
      | 0 => .error .rounds
      | rounds + 1 =>
        Answer.andThen (operand state.advance) fun right after =>
          if (left.join op right state.position).depth ≤ maxTreeDepth then
            chainFrom accepts operand rounds (left.join op right state.position)
              (after.reduce op state.position)
          else .ok ⟨.error (.expressionTooDeep state.position), after⟩
    else .ok ⟨.ok left, state⟩
  | _ => .ok ⟨.ok left, state⟩

/-- Behind its first operand a repetition has a round for each token that is left. -/
def chain (accepts : Operator → Bool) (operand : Rule) : Rule := fun state =>
  Answer.andThen (operand state) fun left after =>
    chainFrom accepts operand after.rest.length left after

def termOf (factor : Rule) : Rule :=
  chain Operator.isMultiplicative factor

def expressionOf (factor : Rule) : Rule :=
  chain (fun op => !op.isMultiplicative) (termOf factor)

def group (inner : Rule) : Rule := fun state =>
  Answer.andThen (inner state.advance) fun parsed after =>
    match after.rest with
    | .closeParen :: _ => .ok ⟨.ok parsed, after.advance⟩
    | _ => .ok ⟨.error (.expectedClosingParen state.position), after.advance⟩

/-- The limit on open parentheses is looked at before the budget. -/
def opening (nesting : Nat) (group : Rule) : Rule := fun state =>
  if maxNesting ≤ nesting then .ok (Parser.tooNested state) else group state

def factorOf (group : Rule) : Rule := fun state =>
  match state.rest with
  | [] => .ok ⟨.error .unexpectedEndOfInput, state⟩
  | .digit _ :: _ => .ok (Parser.literal state)
  | .openParen :: _ => group state
  | token :: _ => .ok ⟨.error (.unexpectedToken token.text state.position), state⟩

def grouping : (budget nesting : Nat) → Rule
  | 0, nesting => opening nesting fun _ => .error .groups
  | budget + 1, nesting =>
    opening nesting (group (expressionOf (factorOf (grouping budget (nesting + 1)))))

def factor (budget nesting : Nat) : Rule :=
  factorOf (grouping budget nesting)

def term (budget nesting : Nat) : Rule :=
  termOf (factor budget nesting)

def expression (budget nesting : Nat) : Rule :=
  expressionOf (factor budget nesting)

/-- The rule never gives up, and answers as the other does. -/
def Follows (rule : Rule) (other : Parser.Rule) : Prop :=
  ∀ state, rule state = .ok (other state)

/-- The rule for a group, from rules for a factor for each number of open parentheses: inside
it there is one more. -/
def groupingOf (factorAt : Nat → Parser.Rule) (nesting : Nat) : Parser.Rule :=
  if maxNesting ≤ nesting then Parser.tooNested
  else Parser.group (Parser.expressionOf (factorAt (nesting + 1)))

/-- Each of the rules reads its groups with the one for one more open parenthesis. Nothing
says where this ends. -/
def Recurs (factorAt : Nat → Parser.Rule) : Prop :=
  ∀ nesting, factorAt nesting = Parser.factorOf (groupingOf factorAt nesting)

def plainFactor (nesting : Nat) : Parser.Rule :=
  Parser.factor (maxNesting - nesting)

theorem plainFactor_eq (nesting : Nat) :
    plainFactor nesting = Parser.factorOf (groupingOf plainFactor nesting) := by
  rw [plainFactor, groupingOf]
  split
  · next full =>
    rw [Nat.sub_eq_zero_of_le full]
    rfl
  · rw [plainFactor, show maxNesting - nesting = maxNesting - (nesting + 1) + 1 by omega]
    rfl

theorem eq_plainFactor_of_recurs {factorAt : Nat → Parser.Rule} (recurs : Recurs factorAt)
    (nesting : Nat) : factorAt nesting = plainFactor nesting := by
  induction room : maxNesting - nesting generalizing nesting with
  | zero =>
      have full : maxNesting ≤ nesting := by omega
      rw [recurs nesting, plainFactor_eq, groupingOf, groupingOf, if_pos full, if_pos full]
  | succ room ih =>
      rw [recurs nesting, plainFactor_eq, groupingOf, groupingOf, ih (nesting + 1) (by omega)]

theorem recurs_iff (factorAt : Nat → Parser.Rule) :
    Recurs factorAt ↔ ∀ nesting, factorAt nesting = plainFactor nesting := by
  refine ⟨eq_plainFactor_of_recurs, ?_⟩
  intro same
  obtain rfl : factorAt = plainFactor := funext same
  exact plainFactor_eq

theorem Answer.andThen_ok {outcome : Outcome} {next : Parsed → State → Answer}
    {other : Parsed → State → Outcome}
    (same : ∀ parsed, next parsed outcome.after = .ok (other parsed outcome.after)) :
    Answer.andThen (.ok outcome) next = .ok (outcome.andThen other) := by
  obtain ⟨result, after⟩ := outcome
  cases result with
  | error cause => rfl
  | ok parsed => exact same parsed

section
variable {accepts : Operator → Bool} {rule : Rule} {other : Parser.Rule}

/-- A round consumes the operator, whatever its operand does. -/
theorem length_rest_lt {operand : Parser.Rule} (progressive : Parser.Progressive operand)
    {state : State} {token : Token} {rest : List Token} (here : state.rest = token :: rest) :
    (operand state.advance).after.rest.length < state.rest.length := by
  obtain ⟨read, split, -⟩ := (progressive state.advance).reaches
  have shorter := congrArg List.length split
  have advanced : state.advance.rest = rest := by simp only [State.advance, here]
  rw [advanced, List.length_append] at shorter
  rw [here, List.length_cons]
  omega

theorem chainFrom_ends {rounds : Nat} {left : Parsed} {state : State}
    (ends : ∀ op, state.rest.head? = some (.operator op) → accepts op = false) :
    chainFrom accepts rule rounds left state = .ok ⟨.ok left, state⟩ := by
  unfold chainFrom
  split
  · rename_i op rest here
    have refused := ends op (by rw [here, List.head?_cons])
    rw [if_neg (by rw [refused]; exact Bool.false_ne_true)]
  · rfl

theorem chainFrom_follows (follows : Follows rule other) (progressive : Parser.Progressive other)
    {rounds : Nat} {left : Parsed} {state : State} (enough : state.rest.length ≤ rounds) :
    chainFrom accepts rule rounds left state = .ok (Parser.chainFrom accepts other left state) := by
  -- The induction is on what may still be read: no round leaves it as it is.
  induction left, state using Parser.chainFrom_rec accepts generalizing rounds with
  | ends left state ends => rw [chainFrom_ends ends, Parser.chainFrom_ends ends]
  | goesOn left state op rest here accepted ih =>
      have shorter := length_rest_lt progressive here
      cases rounds with
      | zero => omega
      | succ rounds =>
          rw [Parser.chainFrom_accepted here accepted]
          unfold chainFrom
          simp only [here, if_pos accepted, follows state.advance]
          apply Answer.andThen_ok
          intro right
          unfold Parser.extend
          split
          · rename_i shallow
            apply ih right shallow
            simp only [State.reduce]
            omega
          · rfl

theorem chain_follows (follows : Follows rule other) (progressive : Parser.Progressive other) :
    Follows (chain accepts rule) (Parser.chain accepts other) := by
  intro state
  rw [chain, follows state, Parser.chain_eq]
  exact Answer.andThen_ok fun left => chainFrom_follows follows progressive (Nat.le_refl _)

theorem expressionOf_follows (follows : Follows rule other)
    (progressive : Parser.Progressive other) :
    Follows (expressionOf rule) (Parser.expressionOf other) :=
  chain_follows (chain_follows follows progressive)
    (Parser.progressive_compositional.termOf progressive)

theorem group_follows (follows : Follows rule other) :
    Follows (group rule) (Parser.group other) := by
  intro state
  rw [group, follows state.advance, Parser.group_eq]
  apply Answer.andThen_ok
  intro parsed
  unfold Parser.close
  cases (other state.advance).after.rest with
  | nil => rfl
  | cons token rest => cases token <;> rfl

theorem factorOf_follows (follows : Follows rule other) :
    Follows (factorOf rule) (Parser.factorOf other) := by
  intro state
  unfold factorOf Parser.factorOf
  cases state.rest with
  | nil => rfl
  | cons token rest =>
      cases token with
      | openParen => exact follows state
      | digit | closeParen | operator => rfl

theorem opening_full {nesting : Nat} (full : maxNesting ≤ nesting) :
    Follows (opening nesting rule) Parser.tooNested := by
  intro state
  rw [opening, if_pos full]

theorem opening_room {nesting : Nat} (room : nesting < maxNesting) :
    opening nesting rule = rule := by
  funext state
  rw [opening, if_neg (Nat.not_le.mpr room)]

end

theorem progressive_plainFactor (nesting : Nat) : Parser.Progressive (plainFactor nesting) :=
  Parser.progressive_compositional.factor _

theorem grouping_follows {budget nesting : Nat} (enough : maxNesting ≤ nesting + budget) :
    Follows (grouping budget nesting) (groupingOf plainFactor nesting) := by
  induction budget generalizing nesting with
  | zero =>
      have full : maxNesting ≤ nesting := enough
      rw [grouping, groupingOf, if_pos full]
      exact opening_full full
  | succ budget ih =>
      rw [grouping, groupingOf]
      split
      · next full => exact opening_full full
      · next room =>
        -- Both rules take the parenthesis, and have room for one less inside.
        have inside : Follows (factorOf (grouping budget (nesting + 1)))
            (plainFactor (nesting + 1)) := by
          rw [plainFactor_eq]
          exact factorOf_follows (ih (by omega))
        rw [opening_room (Nat.lt_of_not_le room)]
        exact group_follows (expressionOf_follows inside (progressive_plainFactor _))

theorem factor_follows {budget nesting : Nat} (enough : maxNesting ≤ nesting + budget) :
    Follows (factor budget nesting) (plainFactor nesting) := by
  rw [plainFactor_eq]
  exact factorOf_follows (grouping_follows enough)

theorem term_follows {budget nesting : Nat} (enough : maxNesting ≤ nesting + budget) :
    Follows (term budget nesting) (Parser.term nesting) :=
  chain_follows (factor_follows enough) (progressive_plainFactor nesting)

theorem expression_follows {budget nesting : Nat} (enough : maxNesting ≤ nesting + budget) :
    Follows (expression budget nesting) (Parser.expression nesting) :=
  expressionOf_follows (factor_follows enough) (progressive_plainFactor nesting)

theorem chain_error {accepts : Operator → Bool} {operand : Rule} {state : State}
    {shortage : Shortage} (short : operand state = .error shortage) :
    chain accepts operand state = .error shortage := by
  rw [chain, short]
  rfl

theorem expressionOf_error {operand : Rule} {state : State} {shortage : Shortage}
    (short : operand state = .error shortage) : expressionOf operand state = .error shortage :=
  chain_error (chain_error short)

theorem factorOf_open {group : Rule} {state : State} {rest : List Token}
    (opens : state.rest = .openParen :: rest) : factorOf group state = group state := by
  simp only [factorOf, opens]

/-- One parenthesis more than the budget allows for, where the limit would allow it. -/
theorem grouping_gives_up {budget nesting : Nat} (room : nesting + budget < maxNesting)
    {state : State} {more : List Token}
    (here : state.rest = List.replicate (budget + 1) .openParen ++ more) :
    grouping budget nesting state = .error .groups := by
  induction budget generalizing nesting state with
  | zero => rw [grouping, opening_room (by omega : nesting < maxNesting)]
  | succ budget ih =>
      have opens : state.rest = .openParen :: (List.replicate (budget + 1) .openParen ++ more) :=
        here
      have inside : state.advance.rest = List.replicate (budget + 1) .openParen ++ more := by
        simp only [State.advance, opens]
      have short : factorOf (grouping budget (nesting + 1)) state.advance = .error .groups := by
        rw [factorOf_open inside]
        exact ih (by omega) inside
      rw [grouping, opening_room (by omega), group, expressionOf_error short]
      rfl

/-- A round of a repetition behind which it goes on: from `left` and `state` to the joined
tree and what its right operand leaves. -/
inductive Round (accepts : Operator → Bool) (operand : Parser.Rule) (left : Parsed)
    (state : State) : Parsed → State → Prop where
  | joined {op : Operator} {rest : List Token} {right : Parsed} {after : State}
      (here : state.rest = .operator op :: rest) (accepted : accepts op = true)
      (answered : operand state.advance = ⟨.ok right, after⟩)
      (shallow : (left.join op right state.position).depth ≤ maxTreeDepth) :
      Round accepts operand left state (left.join op right state.position)
        (after.reduce op state.position)

section
variable {accepts : Operator → Bool} {operand : Parser.Rule} {left joined : Parsed}
  {state after : State}

theorem Round.length_lt (round : Round accepts operand left state joined after)
    (progressive : Parser.Progressive operand) : after.rest.length < state.rest.length := by
  cases round with
  | joined here accepted answered shallow =>
      have shorter := length_rest_lt progressive here
      rwa [answered] at shorter

theorem Round.chainFrom_eq (round : Round accepts operand left state joined after) :
    Parser.chainFrom accepts operand left state = Parser.chainFrom accepts operand joined after := by
  cases round with
  | joined here accepted answered shallow =>
      rw [Parser.chainFrom_accepted here accepted, answered]
      simp only [Outcome.andThen, Parser.extend, if_pos shallow]

end

def Consuming (accepts : Operator → Bool) (operand : Parser.Rule) : Prop :=
  ∀ left state joined after, Round accepts operand left state joined after →
    Parser.chainFrom accepts operand left state = Parser.chainFrom accepts operand joined after ∧
      after.rest.length < state.rest.length

theorem consuming (accepts : Operator → Bool) {operand : Parser.Rule}
    (progressive : Parser.Progressive operand) : Consuming accepts operand :=
  fun _ _ _ _ round => ⟨round.chainFrom_eq, round.length_lt progressive⟩

theorem rule_walkedWithin (category : Category) (allowance : Nat) (state : State) :
    (category.rule allowance state).Ensures fun parsed =>
      parsed.expr.WalkedWithin maxTreeDepth := by
  intro parsed answered
  have tracks := (Parser.rule_consumes category allowance state).tracksDepth parsed answered
  rw [Expr.walkedWithin_iff, ← Expr.depth_eq_height, ← tracks.depth_eq]
  exact tracks.bound

theorem group_ensures {holds : Parsed → Prop} {inner : Parser.Rule} {state : State}
    (ensures : (inner state.advance).Ensures holds) :
    (Parser.group inner state).Ensures holds := by
  intro parsed answered
  rw [Parser.group_eq] at answered
  generalize inner state.advance = outcome at ensures answered
  obtain ⟨result, after⟩ := outcome
  cases result with
  | error cause => cases answered
  | ok inside =>
      have holdsInside := ensures inside rfl
      simp only [Outcome.andThen, Parser.close] at answered
      split at answered
      · cases answered
        exact holdsInside
      · cases answered

theorem groupingOf_walkedWithin (nesting : Nat) (state : State) :
    (groupingOf plainFactor nesting state).Ensures fun parsed =>
      parsed.expr.WalkedWithin maxTreeDepth := by
  rw [groupingOf]
  split
  · intro parsed answered
    cases answered
  · exact group_ensures (rule_walkedWithin .expression (maxNesting - (nesting + 1)) _)

/-- The parentheses that may still be opened are budget enough for every rule on all tokens,
and nothing less is. Without a budget nothing but the tokens ends the recursion, and still
there is only one answer. -/
theorem recursion_exact (nesting : Nat) :
    (∀ factorAt, Recurs factorAt ↔ ∀ already, factorAt already = plainFactor already) ∧
    (∀ budget, maxNesting - nesting ≤ budget →
      Follows (expression budget nesting) (Parser.expression nesting) ∧
      Follows (term budget nesting) (Parser.term nesting) ∧
      Follows (factor budget nesting) (plainFactor nesting) ∧
      Follows (grouping budget nesting) (groupingOf plainFactor nesting)) ∧
    (∀ budget, budget < maxNesting - nesting →
      ∀ (state : State) (more : List Token),
        state.rest = List.replicate (budget + 1) .openParen ++ more →
        expression budget nesting state = .error .groups ∧
        term budget nesting state = .error .groups ∧
        factor budget nesting state = .error .groups ∧
        grouping budget nesting state = .error .groups) ∧
    Consuming (fun op => !op.isMultiplicative) (Parser.term nesting) ∧
    Consuming Operator.isMultiplicative (plainFactor nesting) ∧
    ∀ state,
      (Parser.expression nesting state).Ensures
        (fun parsed => parsed.expr.WalkedWithin maxTreeDepth) ∧
      (Parser.term nesting state).Ensures
        (fun parsed => parsed.expr.WalkedWithin maxTreeDepth) ∧
      (plainFactor nesting state).Ensures
        (fun parsed => parsed.expr.WalkedWithin maxTreeDepth) ∧
      (groupingOf plainFactor nesting state).Ensures
        (fun parsed => parsed.expr.WalkedWithin maxTreeDepth) := by
  refine ⟨recurs_iff, ?_, ?_, ?_, ?_, ?_⟩
  · intro budget large
    have enough : maxNesting ≤ nesting + budget := by omega
    exact ⟨expression_follows enough, term_follows enough, factor_follows enough,
      grouping_follows enough⟩
  · intro budget small state more here
    have room : nesting + budget < maxNesting := by omega
    have atGroup := grouping_gives_up room here
    have atFactor : factor budget nesting state = .error .groups := by
      rw [factor, factorOf_open here, atGroup]
    exact ⟨expressionOf_error atFactor, chain_error atFactor, atFactor, atGroup⟩
  · exact consuming _ (Parser.progressive_compositional.term nesting)
  · exact consuming _ (progressive_plainFactor nesting)
  · intro state
    have walked (category : Category) := rule_walkedWithin category (maxNesting - nesting) state
    exact ⟨walked .expression, walked .term, walked .factor, groupingOf_walkedWithin nesting state⟩

theorem recursion_two_groups :
    254 + 2 = maxNesting ∧
    expression 2 254 (.start 0 (lex "((1))")) =
      .ok (Parser.expression 254 (.start 0 (lex "((1))"))) ∧
    expression 1 254 (.start 0 (lex "((1))")) = .error .groups := by
  obtain ⟨-, follows, givesUp, -⟩ := recursion_exact 254
  have opens : (State.start 0 (lex "((1))")).rest =
      List.replicate (1 + 1) .openParen ++ lex "1))" := by decide
  exact ⟨rfl, (follows 2 (by decide)).1 _, (givesUp 1 (by decide) _ _ opens).1⟩

end Arith.Budgeted
