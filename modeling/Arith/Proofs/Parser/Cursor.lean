import Arith.Proofs.Parser.Answers

/-! Where a rule leaves the cursor, whatever was read before it and however many
parentheses are open.

A rule that answers with a tree has consumed a phrase of its category, which has that
tree, and no operator comes next with which the phrase could go on. A rule that fails has
consumed up to a place that the error fixes, since nothing consumed is given back.
-/

set_option autoImplicit false

namespace Arith

/-- An operator that a repetition does not accept, and its operands do not admit. -/
theorem Category.not_admits_chain {tight : Bool} {op : Operator}
    (operand : (Category.operand tight).admits op.isMultiplicative = false)
    (refused : accepts tight op = false) :
    (Category.chain tight).admits op.isMultiplicative = false := by
  cases tight with
  | true => simpa [accepts, admits] using refused
  | false =>
      have loose : op.isMultiplicative = false := operand
      rw [accepts, loose] at refused
      cases refused

namespace Parser

/-- Where a rule stands when it fails: `read` is consumed, the first of it at position
`base`, and `ahead` is not. -/
inductive StopsAt (base : Nat) : (read ahead : List Token) → ParseError → Prop where
  | unexpectedToken {read ahead : List Token} {token : Token}
      (other : token.startsFactor = false) :
      StopsAt base read (token :: ahead) (.unexpectedToken token.text (base + read.length))
  | endOfInput {read : List Token} : StopsAt base read [] .unexpectedEndOfInput
  | nestingTooDeep {read ahead : List Token} :
      StopsAt base read (.openParen :: ahead) (.nestingTooDeep (base + read.length))
  /-- The digit with which the run grows too large is the last token consumed. -/
  | literalTooLarge {read ahead : List Token} {start i : Nat} {digits : List UInt8}
      (run : DigitRun (read ++ ahead) start digits) (grows : GrowsTooLargeAt digits i)
      (last : read.length = start + i + 1) :
      StopsAt base read ahead (.literalTooLarge (base + start))
  | neverClosed (before : List Token) (inner : Phrase .expression) :
      StopsAt base (before ++ .openParen :: inner.tokens) []
        (.expectedClosingParen (base + before.length))
  /-- The token that neither goes on with the expression nor closes the parenthesis is
  consumed as well. -/
  | notClosed (before : List Token) {ahead : List Token} {token : Token}
      (inner : Phrase .expression) (continuing : ∀ op, token ≠ .operator op)
      (closing : token ≠ .closeParen) :
      StopsAt base (before ++ .openParen :: (inner.tokens ++ [token])) ahead
        (.expectedClosingParen (base + before.length))
  /-- Both operands are consumed, and their operation is the first that is too deep. -/
  | expressionTooDeep (before : List Token) {ahead : List Token} {tight : Bool}
      (left : Phrase (.chain tight)) (op : Operator) (accepted : op.isMultiplicative = tight)
      (right : Phrase (.operand tight))
      (deep : ((left.joined op accepted right).tree (base + before.length)).height =
        maxTreeDepth + 1) :
      StopsAt base (before ++ (left.joined op accepted right).tokens) ahead
        (.expressionTooDeep (base + before.length + left.tokens.length))

/-- The phrase is what stands between two states, and the tree is that of the phrase. -/
structure Reads {category : Category} (phrase : Phrase category) (state : State)
    (parsed : Parsed) (after : State) : Prop where
  tokens : state.rest = phrase.tokens ++ after.rest
  position : after.position = state.position + phrase.tokens.length
  tree : phrase.tree state.position = parsed.expr.tree
  height : parsed.depth = parsed.expr.height

def Consumes (category : Category) (state : State) : Outcome → Prop
  | ⟨.ok parsed, after⟩ => ∃ phrase : Phrase category, phrase.tokens ≠ [] ∧
      Reads phrase state parsed after ∧ parsed.depth ≤ maxTreeDepth ∧
        ∀ op, after.rest.head? = some (.operator op) → category.admits op.isMultiplicative = false
  | ⟨.error cause, after⟩ => ∃ read,
      state.rest = read ++ after.rest ∧
      after.position = state.position + read.length ∧
      StopsAt state.position read after.rest cause

/-- What stops a rule stops it behind other tokens too, if the last of these is no digit. -/
theorem StopsAt.behind {base : Nat} {first read ahead : List Token} {token : Token}
    {cause : ParseError} (stops : StopsAt (base + first.length + 1) read ahead cause)
    (other : ∀ digit, token ≠ .digit digit) :
    StopsAt base (first ++ token :: read) ahead cause := by
  have place : ∀ more : List Token,
      base + first.length + 1 + more.length = base + (first ++ token :: more).length := by
    intro more
    simp only [List.length_append, List.length_cons]
    omega
  have grouped : ∀ more rest : List Token,
      first ++ token :: (more ++ rest) = (first ++ token :: more) ++ rest := by
    simp only [List.append_assoc, List.cons_append, implies_true]
  cases stops with
  | unexpectedToken inapt =>
      rw [place]
      exact .unexpectedToken inapt
  | endOfInput => exact .endOfInput
  | nestingTooDeep =>
      rw [place]
      exact .nestingTooDeep
  | @literalTooLarge read ahead start i digits run grows last =>
      have behind : DigitRun (first ++ token :: (read ++ ahead)) (first.length + 1 + start)
          digits := run.ofRight other
      rw [grouped] at behind
      rw [show base + first.length + 1 + start = base + (first.length + 1 + start) by omega]
      refine .literalTooLarge behind grows ?_
      simp only [List.length_append, List.length_cons, last]
      omega
  | neverClosed before inner =>
      rw [place, grouped]
      exact .neverClosed _ inner
  | notClosed before inner continuing closing =>
      rw [place, grouped]
      exact .notClosed _ inner continuing closing
  | expressionTooDeep before left op accepted right deep =>
      rw [place] at deep ⊢
      rw [grouped]
      exact .expressionTooDeep _ left op accepted right deep

section
variable {state : State} {rest : List Token}

theorem advance_eq {token : Token} (here : state.rest = token :: rest) :
    state.advance = ⟨state.position + 1, rest, state.reductions⟩ := by
  simp only [State.advance, here]

theorem Consumes.behind {category other : Category} {inner after : State} {cause : ParseError}
    (failed : Consumes category inner ⟨.error cause, after⟩) (first : List Token) {token : Token}
    (noDigit : ∀ digit, token ≠ .digit digit) (here : state.rest = first ++ token :: inner.rest)
    (place : inner.position = state.position + first.length + 1) :
    Consumes other state ⟨.error cause, after⟩ := by
  obtain ⟨read, split, position, stops⟩ := failed
  rw [place] at position stops
  refine ⟨first ++ token :: read, ?_, ?_, stops.behind noDigit⟩
  · rw [here, split, List.append_assoc, List.cons_append]
  · rw [position, List.length_append, List.length_cons]
    omega

theorem literal_consumes {digit : UInt8} (here : state.rest = .digit digit :: rest) :
    Consumes .factor state (literal state) := by
  obtain ⟨digits, ahead, split, ends⟩ := exists_run state.rest
  have nonempty : digits ≠ [] := by
    rintro rfl
    rw [here] at split
    exact ends digit (by rw [← List.nil_append ahead, ← List.map_nil, ← split, List.head?_cons])
  rw [literal_eq state digits split ends]
  cases found : overrun? 0 state.position digits with
  | none =>
      have small := (overrun?_eq_none_iff state.position digits).mp found
      refine ⟨.literal digits nonempty, Phrase.tokens_ne_nil _, ⟨split, ?_, ?_, rfl⟩, ?_,
        fun _ _ => rfl⟩
      · simp only [Phrase.tokens, List.length_map]
      · simp only [Phrase.tree, Parsed.literal, Expr.tree,
          toInt_ofInt ((fits_natCast_iff _).mpr small)]
      · simp only [Parsed.literal, maxTreeDepth]
        omega
  | some point =>
      obtain ⟨i, rfl, grows⟩ := (overrun?_eq_some_iff state.position digits point).mp found
      have bound := grows.bound
      have taken : ((digits.take (i + 1)).map Token.digit).length = i + 1 := by
        rw [List.length_map, List.length_take]
        omega
      have parts : digits.map Token.digit ++ ahead =
          (digits.take (i + 1)).map .digit ++ ((digits.drop (i + 1)).map .digit ++ ahead) := by
        rw [← List.append_assoc, ← List.map_append, List.take_append_drop]
      have run := digitRun_ahead nonempty ends
      simp only [show state.position + i + 1 - state.position = i + 1 by omega]
      rw [parts] at split run
      refine ⟨_, split, ?_, .literalTooLarge run grows ?_⟩
      · rw [taken, Nat.add_assoc]
      · rw [taken, Nat.zero_add]

theorem close_consumes {parsed : Parsed} {after : State} (here : state.rest = .openParen :: rest)
    (consumed : Consumes .expression state.advance ⟨.ok parsed, after⟩) :
    Consumes .factor state (close state.position parsed after) := by
  obtain ⟨phrase, -, reads, shallow, ends⟩ := consumed
  rw [advance_eq here] at reads
  have inside : rest = phrase.tokens ++ after.rest := reads.tokens
  have position : after.position = state.position + 1 + phrase.tokens.length := reads.position
  unfold close
  cases behind : after.rest with
  | nil =>
      -- At the end nothing is consumed in place of the closing parenthesis.
      have stays : after.advance = after := by simp only [State.advance, behind]
      rw [stays]
      rw [behind, List.append_nil] at inside
      refine ⟨.openParen :: phrase.tokens, ?_, ?_, ?_⟩
      · rw [here, inside, behind, List.append_nil]
      · rw [position, List.length_cons]
        omega
      · rw [behind]
        exact .neverClosed [] phrase
  | cons token further =>
      have read : state.rest = .openParen :: (phrase.tokens ++ [token]) ++ further := by
        rw [here, inside, behind, List.cons_append, List.append_assoc, List.singleton_append]
      have length : after.position + 1 =
          state.position + (Token.openParen :: (phrase.tokens ++ [token])).length := by
        rw [position, List.length_cons, List.length_append, List.length_singleton]
        omega
      have continuing : ∀ op, token ≠ .operator op := by
        rintro op rfl
        cases ends op (by rw [behind, List.head?_cons])
      rw [advance_eq behind]
      cases token with
      | closeParen =>
          exact ⟨phrase.group, phrase.group.tokens_ne_nil,
            ⟨read, length, reads.tree, reads.height⟩, shallow, fun _ _ => rfl⟩
      | operator op => exact absurd rfl (continuing op)
      | openParen | digit =>
          exact ⟨_, read, length, .notClosed [] phrase continuing (by simp)⟩

theorem group_consumes {inner : Rule}
    (reads : ∀ state, Consumes .expression state (inner state))
    (here : state.rest = .openParen :: rest) : Consumes .factor state (group inner state) := by
  have consumed := reads state.advance
  rw [group_eq]
  generalize inner state.advance = outcome at consumed ⊢
  obtain ⟨result, after⟩ := outcome
  cases result with
  | error cause =>
      have opened := advance_eq here
      have openingNoDigit : ∀ digit, Token.openParen ≠ .digit digit := by simp
      apply consumed.behind [] openingNoDigit
      · rw [here, opened, List.nil_append]
      · rw [opened, List.length_nil, Nat.add_zero]
  | ok parsed => exact close_consumes here consumed

/-- The operand behind an accepted operator makes the phrase longer. -/
theorem Reads.joined {tight : Bool} {first : Phrase (.chain tight)} {start after : State}
    {left right : Parsed} {op : Operator} {second : Phrase (.operand tight)}
    (reads : Reads first start left state) (here : state.rest = .operator op :: rest)
    (accepted : op.isMultiplicative = tight) (behind : Reads second state.advance right after) :
    Reads (first.joined op accepted second) start (left.join op right state.position) after := by
  rw [advance_eq here] at behind
  have inside : rest = second.tokens ++ after.rest := behind.tokens
  have position : after.position = state.position + 1 + second.tokens.length := behind.position
  have tree : second.tree (state.position + 1) = right.expr.tree := behind.tree
  refine ⟨?_, ?_, ?_, ?_⟩
  · rw [reads.tokens, here, inside, Phrase.tokens, List.append_assoc, List.cons_append]
  · rw [position, reads.position, first.length_joined op accepted second]
    omega
  · rw [reads.position] at tree ⊢
    simp only [Phrase.tree, reads.tree, tree, Parsed.join, Expr.tree]
  · simp only [Parsed.join, Expr.height, reads.height, behind.height]

end

theorem chainFrom_consumes {operand : Rule} {tight : Bool}
    (operands : ∀ state, Consumes (.operand tight) state (operand state)) {start : State}
    (left : Parsed) (state : State) (first : Phrase (.chain tight))
    (reads : Reads first start left state) (shallow : left.depth ≤ maxTreeDepth)
    (ends : ∀ op, state.rest.head? = some (.operator op) →
      (Category.operand tight).admits op.isMultiplicative = false) :
    Consumes (.chain tight) start (chainFrom (Category.accepts tight) operand left state) := by
  fun_induction chainFrom (Category.accepts tight) operand left state generalizing first with
  -- The induction is on the rounds of the loop: `first` is what was read before a round.
  | case1 left state op behind here accepted cause after answered =>
      have consumed := operands state.advance
      rw [answered] at consumed
      have operatorNoDigit : ∀ digit, Token.operator op ≠ .digit digit := by simp
      apply consumed.behind first.tokens operatorNoDigit
      · rw [reads.tokens, here, advance_eq here]
      · rw [advance_eq here, reads.position]
  | case2 left state op behind here accepted right after answered shallowJoined ih =>
      have consumed := operands state.advance
      rw [answered] at consumed
      obtain ⟨second, -, readsSecond, -, endsSecond⟩ := consumed
      have joined := reads.joined here (eq_of_beq accepted) readsSecond
      exact ih _ ⟨joined.tokens, joined.position, joined.tree, joined.height⟩ shallowJoined
        endsSecond
  | case3 left state op behind here accepted right after answered deep =>
      have consumed := operands state.advance
      rw [answered] at consumed
      obtain ⟨second, -, readsSecond, shallowSecond, -⟩ := consumed
      have joined := reads.joined here (eq_of_beq accepted) readsSecond
      refine ⟨_, joined.tokens, joined.position, ?_⟩
      have height : ((first.joined op (eq_of_beq accepted) second).tree start.position).height =
          maxTreeDepth + 1 := by
        rw [joined.tree, Tree.height_tree, ← joined.height]
        simp only [Parsed.join] at deep ⊢
        omega
      rw [reads.position]
      exact .expressionTooDeep [] first op (eq_of_beq accepted) second height
  | case4 left state op behind here refused =>
      refine ⟨first, first.tokens_ne_nil, reads, shallow, ?_⟩
      intro other head
      rw [here, List.head?_cons] at head
      cases head
      have operandEnds := ends op (by rw [here, List.head?_cons])
      exact Category.not_admits_chain operandEnds (Bool.eq_false_iff.mpr refused)
  | case5 left state elsewhere =>
      refine ⟨first, first.tokens_ne_nil, reads, shallow, ?_⟩
      intro op head
      obtain ⟨behind, here⟩ := List.head?_eq_some_iff.mp head
      exact absurd here (elsewhere op behind)

theorem chain_consumes {operand : Rule} {tight : Bool}
    (operands : ∀ state, Consumes (.operand tight) state (operand state)) (state : State) :
    Consumes (.chain tight) state (chain (Category.accepts tight) operand state) := by
  have consumed := operands state
  rw [chain_eq]
  generalize operand state = outcome at consumed ⊢
  obtain ⟨result, after⟩ := outcome
  cases result with
  | error cause => exact consumed
  | ok parsed =>
      obtain ⟨phrase, -, reads, shallow, ends⟩ := consumed
      have alone : Reads (.operand phrase : Phrase (.chain tight)) state parsed after :=
        ⟨reads.tokens, reads.position, reads.tree, reads.height⟩
      exact chainFrom_consumes operands parsed after _ alone shallow ends

theorem factor_consumes_of_open {allowance : Nat}
    (opens : ∀ (state : State) (rest : List Token), state.rest = .openParen :: rest →
      Consumes .factor state (factor allowance state)) (state : State) :
    Consumes .factor state (factor allowance state) := by
  cases here : state.rest with
  | nil =>
      rw [factor_end here]
      exact ⟨[], rfl, rfl, by rw [here]; exact .endOfInput⟩
  | cons token rest =>
      cases token with
      | openParen => exact opens state rest here
      | digit digit =>
          rw [factor_digit here]
          exact literal_consumes here
      | closeParen | operator =>
          rw [factor_unexpected here rfl]
          exact ⟨[], rfl, rfl, by rw [here]; exact .unexpectedToken rfl⟩

theorem rule_consumes_of_factor {allowance : Nat} (category : Category)
    (factors : ∀ state, Consumes .factor state (factor allowance state)) (state : State) :
    Consumes category state (category.rule allowance state) := by
  have terms : ∀ state, Consumes (.operand false) state (Category.term.rule allowance state) := by
    rw [Category.rule_chain]
    exact chain_consumes factors
  cases category with
  | factor => exact factors state
  | chain tight =>
      cases tight with
      | true => exact terms state
      | false =>
          rw [Category.rule_chain]
          exact chain_consumes terms state

theorem factor_consumes (allowance : Nat) (state : State) :
    Consumes .factor state (factor allowance state) := by
  induction allowance generalizing state with
  | zero =>
      apply factor_consumes_of_open
      intro state rest here
      rw [factor_tooNested here]
      exact ⟨[], rfl, rfl, by rw [here]; exact .nestingTooDeep⟩
  | succ allowance ih =>
      apply factor_consumes_of_open
      intro state rest here
      rw [factor_open here]
      exact group_consumes (rule_consumes_of_factor .expression ih) here

theorem rule_consumes (category : Category) (allowance : Nat) (state : State) :
    Consumes category state (category.rule allowance state) :=
  rule_consumes_of_factor category (factor_consumes allowance) state

/-- Wherever a rule starts and however many parentheses are open, what it consumed is a
phrase that it cannot go on with, or ends at the place that its error names. -/
theorem cursor_exact (nesting : Nat) (state : State) :
    Consumes .expression state (expression nesting state) ∧
      Consumes .term state (term nesting state) := by
  have expressions := rule_consumes .expression (maxNesting - nesting) state
  have terms := rule_consumes .term (maxNesting - nesting) state
  exact ⟨expressions, terms⟩

end Parser

end Arith
