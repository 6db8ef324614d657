import Arith.Proofs.Clean
import Arith.Proofs.Parser.Phrases

/-! What the rules answer, whatever the tokens are.

A rule reads a phrase of its category and stops before a token that cannot continue it,
or it reads a clean prefix and is stuck there for one of six reasons.
-/

set_option autoImplicit false

namespace Arith

/-- What the rule for a category may leave although it may come next: a parenthesis
that closes one before the phrase, or an operator that binds too weakly. -/
def Category.Leaves : Category → Token → Prop
  | _, .closeParen => True
  | .factor, .operator _ => True
  | .chain tight, .operator op => tight = true ∧ op.isMultiplicative = false
  | _, _ => False

namespace Parser

inductive Stuck : (read ahead : List Token) → ParseError → Prop where
  | endOfInput {read : List Token} (awaits : AwaitsOperand read) :
      Stuck read [] .unexpectedEndOfInput
  | unexpected {read ahead : List Token} {token : Token} (awaits : AwaitsOperand read)
      (other : token.startsFactor = false) :
      Stuck read (token :: ahead) (.unexpectedToken token.text read.length)
  | tooNested {read ahead : List Token} (awaits : AwaitsOperand read)
      (full : (unclosed read).length = maxNesting) :
      Stuck read (.openParen :: ahead) (.nestingTooDeep read.length)
  | tooLarge {read ahead : List Token} {digits : List UInt8} (awaits : AwaitsOperand read)
      (ends : NoDigitAhead ahead) (large : largestLiteral < digitsValue digits) :
      Stuck read (digits.map .digit ++ ahead) (.literalTooLarge read.length)
  | notClosed {read ahead : List Token} {position : Nat} {opened : List Nat}
      (complete : ¬ AwaitsOperand read) (innermost : unclosed read = position :: opened)
      (refused : ∀ token, ahead.head? = some token → ¬ MayFollow read token) :
      Stuck read ahead (.expectedClosingParen position)
  | tooDeep {read ahead : List Token} {position : Nat} :
      Stuck read ahead (.expressionTooDeep position)

/-- An answer for the category, given with `before` read and `rest` to come. -/
def Answers (category : Category) (before rest : List Token) : Outcome → Prop
  | ⟨.error cause, _⟩ => ∃ read ahead,
      rest = read ++ ahead ∧ Clean (before ++ read) ∧ Stuck (before ++ read) ahead cause
  | ⟨.ok _, after⟩ => ∃ phrase : Phrase category,
      rest = phrase.tokens ++ after.rest ∧
      after.position = before.length + phrase.tokens.length ∧
      Clean (before ++ phrase.tokens) ∧
      ∀ token, after.rest.head? = some token → MayFollow (before ++ phrase.tokens) token →
        category.Leaves token

def AnswersFor (rule : Rule) (category : Category) (nesting : Nat) : Prop :=
  ∀ (before : List Token) (state : State), Clean before → AwaitsOperand before →
    (unclosed before).length = nesting → state.position = before.length →
      Answers category before state.rest (rule state)

variable {before rest : List Token} {state : State}

theorem Answers.behind {category other : Category} {first : List Token} {cause : ParseError}
    {after : State} (answers : Answers category (before ++ first) rest ⟨.error cause, after⟩) :
    Answers other before (first ++ rest) ⟨.error cause, after⟩ := by
  obtain ⟨read, ahead, rfl, clean, stuck⟩ := answers
  rw [List.append_assoc] at clean stuck
  exact ⟨first ++ read, ahead, (List.append_assoc _ _ _).symm, clean, stuck⟩

theorem Answers.andThen {category other : Category} {first : List Token} {outcome : Outcome}
    {next : Parsed → State → Outcome} (answers : Answers category (before ++ first) rest outcome)
    (goesOn : ∀ parsed after, Answers category (before ++ first) rest ⟨.ok parsed, after⟩ →
      Answers other before (first ++ rest) (next parsed after)) :
    Answers other before (first ++ rest) (outcome.andThen next) := by
  obtain ⟨result, after⟩ := outcome
  cases result with
  | error cause => exact answers.behind
  | ok parsed => exact goesOn parsed after answers

theorem Stuck.answers {category : Category} {cause : ParseError} {after : State}
    (stuck : Stuck before rest cause) (clean : Clean before) :
    Answers category before rest ⟨.error cause, after⟩ := by
  refine ⟨[], rest, rfl, ?_, ?_⟩
  · rwa [List.append_nil]
  · rwa [List.append_nil]

theorem exists_run (tokens : List Token) :
    ∃ (digits : List UInt8) (rest : List Token),
      tokens = digits.map .digit ++ rest ∧ NoDigitAhead rest := by
  induction tokens with
  | nil => exact ⟨[], [], rfl, by simp [NoDigitAhead]⟩
  | cons token tokens ih =>
      cases token with
      | digit digit =>
          obtain ⟨digits, rest, rfl, ends⟩ := ih
          exact ⟨digit :: digits, rest, rfl, ends⟩
      | openParen | closeParen | operator => exact ⟨[], _, rfl, by simp [NoDigitAhead]⟩

theorem leaves_factor {read : List Token} {token : Token} (complete : ¬ AwaitsOperand read)
    (follows : MayFollow read token) (other : ∀ digit, token ≠ .digit digit) :
    Category.factor.Leaves token := by
  cases token with
  | openParen => exact absurd follows complete
  | digit digit => exact absurd rfl (other digit)
  | closeParen | operator op => exact trivial

theorem literal_answers (clean : Clean before) (awaits : AwaitsOperand before)
    (place : state.position = before.length) {digit : UInt8}
    (here : state.rest = .digit digit :: rest) :
    Answers .factor before state.rest (literal state) := by
  obtain ⟨digits, ahead, split, ends⟩ := exists_run state.rest
  have nonempty : digits ≠ [] := by
    rintro rfl
    rw [here] at split
    exact ends digit (by rw [← List.nil_append ahead, ← List.map_nil, ← split, List.head?_cons])
  rw [literal_eq state digits split ends, split]
  cases found : overrun? 0 state.position digits with
  | none =>
      have small := (overrun?_eq_none_iff state.position digits).mp found
      let phrase : Phrase .factor := .literal digits nonempty
      refine ⟨phrase, rfl, ?_, clean.digits awaits small, ?_⟩
      · simp only [phrase, Phrase.tokens, List.length_map, place]
      · intro token head follows
        apply leaves_factor (phrase.not_awaitsOperand before) follows
        rintro digit rfl
        exact ends digit head
  | some point =>
      obtain ⟨i, -, grows⟩ := (overrun?_eq_some_iff state.position digits point).mp found
      rw [place]
      exact (Stuck.tooLarge awaits ends grows.too_large).answers clean

theorem close_answers {parsed : Parsed} {after : State} (place : state.position = before.length)
    (answers : Answers .expression (before ++ [.openParen]) rest ⟨.ok parsed, after⟩) :
    Answers .factor before (.openParen :: rest) (close state.position parsed after) := by
  obtain ⟨phrase, rfl, position, clean, leaves⟩ := answers
  have complete := phrase.not_awaitsOperand (before ++ [.openParen])
  have innermost : unclosed (before ++ [.openParen] ++ phrase.tokens) =
      before.length :: unclosed before := by
    rw [phrase.unclosed_append, unclosed_concat, openedAfter]
  have all : before ++ .openParen :: phrase.tokens = before ++ [.openParen] ++ phrase.tokens := by
    rw [List.append_assoc, List.singleton_append]
  unfold close
  split
  · rename_i behind here
    have closed : before ++ phrase.group.tokens =
        before ++ [.openParen] ++ phrase.tokens ++ [.closeParen] := by
      simp only [Phrase.tokens, List.append_assoc, List.cons_append, List.nil_append]
    refine ⟨phrase.group, ?_, ?_, ?_, ?_⟩
    · simp [Phrase.tokens, State.advance, here]
    · simp only [Phrase.tokens, State.advance, here, position, List.length_append, List.length_cons,
        List.length_nil]
      omega
    · have follows : MayFollow (before ++ [.openParen] ++ phrase.tokens) .closeParen :=
        ⟨complete, by rw [innermost]; exact List.cons_ne_nil _ _⟩
      rw [closed]
      exact clean.concat follows (by simp) (by simp)
    · intro token head follows
      apply leaves_factor (phrase.group.not_awaitsOperand before) follows
      rintro digit rfl
      rw [closed, MayFollow, List.getLast?_concat] at follows
      exact follows rfl
  · rename_i other
    rw [place]
    refine ⟨.openParen :: phrase.tokens, after.rest, rfl, by rwa [all], ?_⟩
    rw [all]
    refine .notClosed complete innermost ?_
    intro token head follows
    have left := leaves token head follows
    cases token with
    | closeParen =>
        obtain ⟨behind, here⟩ := List.head?_eq_some_iff.mp head
        exact other behind here
    | operator op => cases left.1
    | openParen | digit => exact left

theorem group_answers {inner : Rule} {nesting : Nat}
    (inside : AnswersFor inner .expression (nesting + 1)) (room : nesting ≠ maxNesting)
    (clean : Clean before) (awaits : AwaitsOperand before)
    (opened : (unclosed before).length = nesting) (place : state.position = before.length)
    (here : state.rest = .openParen :: rest) :
    Answers .factor before state.rest (group inner state) := by
  have follows : MayFollow before .openParen := awaits
  have cleanInside := clean.concat follows (by simp) (fun _ => by rwa [opened])
  have answers := inside (before ++ [.openParen]) state.advance cleanInside
    ((awaitsOperand_concat _ _).mpr (.inl rfl))
    (by rw [unclosed_concat, openedAfter, List.length_cons, opened])
    (by simp only [State.advance, here, place, List.length_append, List.length_singleton])
  have advanced : state.advance.rest = rest := by simp only [State.advance, here]
  rw [advanced] at answers
  rw [group_eq, here]
  exact answers.andThen fun parsed after => close_answers place

/-- A repetition leaves what its last operand leaves, the accepted operators apart. -/
theorem leaves_chain {tight : Bool} {token : Token} (leaves : (Category.operand tight).Leaves token)
    (refused : ∀ op, token = .operator op → Category.accepts tight op = false) :
    (Category.chain tight).Leaves token := by
  cases token with
  | operator op =>
      have other := refused op rfl
      cases tight with
      | true => exact ⟨rfl, by simpa [Category.accepts] using other⟩
      | false => simp [Category.accepts, leaves.2] at other
  | closeParen => exact trivial
  | openParen | digit =>
      cases tight <;> exact leaves

theorem operand_answers {operand : Rule} {tight : Bool} {nesting : Nat} {op : Operator}
    (reads : AnswersFor operand (.operand tight) nesting) (first : Phrase (.chain tight))
    (opened : (unclosed before).length = nesting) (clean : Clean (before ++ first.tokens))
    (place : state.position = before.length + first.tokens.length)
    (here : state.rest = .operator op :: rest) :
    Answers (.operand tight) (before ++ (first.tokens ++ [.operator op])) rest
      (operand state.advance) := by
  have follows : MayFollow (before ++ first.tokens) (.operator op) := first.not_awaitsOperand before
  have cleanBehind := clean.concat follows (by simp) (by simp)
  have advanced : state.advance.rest = rest := by simp only [State.advance, here]
  rw [← advanced, ← List.append_assoc]
  apply reads _ _ cleanBehind ((awaitsOperand_concat _ _).mpr (.inr ⟨op, rfl⟩))
  · simp only [unclosed_concat, openedAfter, first.unclosed_append, opened]
  · simp only [State.advance, here, place, List.length_append, List.length_singleton]

theorem chainFrom_answers {operand : Rule} {tight : Bool} {nesting : Nat}
    (reads : AnswersFor operand (.operand tight) nesting) (left : Parsed)
    (first : Phrase (.chain tight)) (opened : (unclosed before).length = nesting)
    (clean : Clean (before ++ first.tokens))
    (place : state.position = before.length + first.tokens.length)
    (leaves : ∀ token, state.rest.head? = some token → MayFollow (before ++ first.tokens) token →
      (Category.operand tight).Leaves token) :
    Answers (.chain tight) before (first.tokens ++ state.rest)
      (chainFrom (Category.accepts tight) operand left state) := by
  fun_induction chainFrom (Category.accepts tight) operand left state generalizing first with
  -- The induction is on the rounds of the loop: `first` is what was read before a round.
  | case1 left state op behind here accepted cause after answered =>
      have answers := operand_answers reads first opened clean place here
      rw [answered] at answers
      rw [here, List.append_cons]
      exact answers.behind
  | case2 left state op behind here accepted right after answered shallow ih =>
      have answers := operand_answers reads first opened clean place here
      rw [answered] at answers
      obtain ⟨second, rfl, position, cleanBehind, leavesBehind⟩ := answers
      have tokens : first.tokens ++ [.operator op] ++ second.tokens =
          (first.joined op (eq_of_beq accepted) second).tokens := by
        rw [Phrase.tokens, ← List.append_cons]
      rw [List.append_assoc, tokens] at cleanBehind leavesBehind
      rw [here, List.append_cons, ← List.append_assoc, tokens]
      apply ih _ cleanBehind _ leavesBehind
      rw [← tokens]
      simp only [State.reduce, position, List.length_append]
      omega
  | case3 left state op behind here accepted right after answered deep =>
      have answers := operand_answers reads first opened clean place here
      rw [answered] at answers
      obtain ⟨second, rfl, position, cleanBehind, leavesBehind⟩ := answers
      rw [here, List.append_cons, ← List.append_assoc]
      rw [List.append_assoc] at cleanBehind
      -- Both operands are read by then, and all that is read is clean.
      exact ⟨_, after.rest, rfl, cleanBehind, .tooDeep⟩
  | case4 left state op behind here refused =>
      refine ⟨first, rfl, place, clean, ?_⟩
      intro token head follows
      apply leaves_chain (leaves token head follows)
      rintro other rfl
      rw [here, List.head?_cons] at head
      cases head
      exact Bool.eq_false_iff.mpr refused
  | case5 left state other =>
      refine ⟨first, rfl, place, clean, ?_⟩
      intro token head follows
      apply leaves_chain (leaves token head follows)
      rintro op rfl
      obtain ⟨behind, here⟩ := List.head?_eq_some_iff.mp head
      exact absurd here (other op behind)

theorem chain_answers {operand : Rule} {tight : Bool} {nesting : Nat}
    (reads : AnswersFor operand (.operand tight) nesting) :
    AnswersFor (chain (Category.accepts tight) operand) (.chain tight) nesting := by
  intro before state clean awaits opened place
  have answers := reads before state clean awaits opened place
  rw [← List.append_nil before] at answers
  rw [chain_eq, ← List.nil_append state.rest]
  apply answers.andThen
  intro parsed after read
  obtain ⟨first, split, position, cleanBehind, leaves⟩ := read
  rw [List.append_nil] at position cleanBehind leaves
  rw [List.nil_append, split]
  exact chainFrom_answers reads parsed (.operand first) opened cleanBehind position leaves

/-- Only what a parenthesis leads to depends on how many may still be opened. -/
theorem factor_answers_of_open {allowance nesting : Nat}
    (opens : ∀ (before : List Token) (state : State) (rest : List Token), Clean before →
      AwaitsOperand before → (unclosed before).length = nesting → state.position = before.length →
        state.rest = .openParen :: rest →
          Answers .factor before state.rest (factor allowance state)) :
    AnswersFor (factor allowance) .factor nesting := by
  intro before state clean awaits opened place
  cases here : state.rest with
  | nil =>
      rw [factor_end here]
      exact (Stuck.endOfInput awaits).answers clean
  | cons token rest =>
      cases token with
      | openParen =>
          rw [← here]
          exact opens before state rest clean awaits opened place here
      | digit digit =>
          rw [← here, factor_digit here]
          exact literal_answers clean awaits place here
      | closeParen | operator =>
          rw [factor_unexpected here rfl, place]
          exact (Stuck.unexpected awaits rfl).answers clean

theorem rule_answers_of_factor {allowance nesting : Nat} (category : Category)
    (factors : AnswersFor (factor allowance) .factor nesting) :
    AnswersFor (category.rule allowance) category nesting := by
  have terms : AnswersFor (Category.term.rule allowance) .term nesting := by
    rw [Category.rule_chain]
    exact chain_answers factors
  cases category with
  | factor => exact factors
  | chain tight =>
      cases tight with
      | true => exact terms
      | false =>
          rw [Category.rule_chain]
          exact chain_answers terms

theorem factor_answers (nesting allowance : Nat) (limit : nesting + allowance = maxNesting) :
    AnswersFor (factor allowance) .factor nesting := by
  induction allowance generalizing nesting with
  | zero =>
      apply factor_answers_of_open
      intro before state rest clean awaits opened place here
      rw [factor_tooNested here, here, tooNested, place]
      exact (Stuck.tooNested awaits (by omega)).answers clean
  | succ allowance ih =>
      apply factor_answers_of_open
      intro before state rest clean awaits opened place here
      -- One more is open inside, and one fewer may still be opened.
      rw [factor_open here]
      have inner := rule_answers_of_factor .expression (ih (nesting + 1) (by omega))
      exact group_answers inner (by omega) clean awaits opened place here

theorem rule_answers (category : Category) {nesting allowance : Nat}
    (limit : nesting + allowance = maxNesting) :
    AnswersFor (category.rule allowance) category nesting :=
  rule_answers_of_factor category (factor_answers nesting allowance limit)

inductive Rejected : (read ahead : List Token) → ParseError → Prop where
  | stuck {read ahead : List Token} {cause : ParseError} (stuck : Stuck read ahead cause) :
      Rejected read ahead cause
  | trailing {read ahead : List Token} {token : Token} (complete : ¬ AwaitsOperand read)
      (closed : unclosed read = []) (refused : ¬ MayFollow read token) :
      Rejected read (token :: ahead) (.unexpectedTrailingTokens token.text read.length)

end Parser

open Arith.Parser

/-- An accepted sequence is an expression. A rejected one has a clean prefix, behind which
it cannot be read. -/
theorem parseTree_answers (tokens : List Token) :
    match parseTree tokens with
    | .ok _ => InGrammar tokens
    | .error cause => ∃ read ahead,
        tokens = read ++ ahead ∧ Clean read ∧ Rejected read ahead cause := by
  have answers := rule_answers .expression (Nat.zero_add maxNesting) [] (.start 0 tokens) Clean.nil
    awaitsOperand_nil rfl rfl
  unfold parseTree leadingExpression expression
  rw [Nat.sub_zero]
  change Answers .expression [] tokens (expressionOf (factor maxNesting) (.start 0 tokens))
    at answers
  generalize expressionOf (factor maxNesting) (.start 0 tokens) = outcome at answers ⊢
  obtain ⟨result, after⟩ := outcome
  cases result with
  | error cause =>
      obtain ⟨read, ahead, same, clean, stuck⟩ := answers
      exact ⟨read, ahead, same, clean, .stuck stuck⟩
  | ok parsed =>
      obtain ⟨phrase, same, position, clean, leaves⟩ := answers
      simp only [List.nil_append, List.length_nil, Nat.zero_add] at position clean leaves
      cases rest : after.rest with
      | nil =>
          simp only [State.next?, rest, List.head?_nil, Option.map_none]
          exact ⟨phrase, by rw [same, rest, List.append_nil]⟩
      | cons token behind =>
          simp only [State.next?, rest, List.head?_cons, Option.map_some, position]
          have complete := phrase.not_awaitsOperand []
          have closed := phrase.unclosed_append []
          refine ⟨phrase.tokens, token :: behind, by rw [same, rest], clean, ?_⟩
          -- What the expression leaves can only close a parenthesis, and none is open.
          refine .trailing complete closed ?_
          intro follows
          have left := leaves token (by rw [rest, List.head?_cons]) follows
          cases token with
          | closeParen => exact follows.2 closed
          | operator op => cases left.1
          | openParen | digit => exact left

theorem parseTree_ok {tokens : List Token} {expr : Expr} (accepted : parseTree tokens = .ok expr) :
    InGrammar tokens := by
  have answers := parseTree_answers tokens
  rw [accepted] at answers
  exact answers

theorem parseTree_error {tokens : List Token} {cause : ParseError}
    (rejected : parseTree tokens = .error cause) :
    ∃ read ahead, tokens = read ++ ahead ∧ Clean read ∧ Rejected read ahead cause := by
  have answers := parseTree_answers tokens
  rw [rejected] at answers
  exact answers

end Arith
