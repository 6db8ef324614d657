import Arith.Parser.Rules
import Arith.Proofs.Faults

/-! The rules one step at a time: what each does with the next token, and how it goes on
with what another rule has answered.
-/

set_option autoImplicit false

namespace Arith.Parser

theorem appendDigit?_eq {value : Nat} (fits : value ≤ largestLiteral) (digit : UInt8) :
    appendDigit? (Int64.ofInt value) digit =
      if value * 10 + digit.toNat ≤ largestLiteral then
        some (Int64.ofInt (value * 10 + digit.toNat : Nat))
      else none := by
  have here : (Int64.ofInt value).toInt = value := toInt_ofInt ((fits_natCast_iff value).mpr fits)
  have small : (Int64.ofNat digit.toNat).toInt = digit.toNat := by
    have bound := digit.toNat_lt
    exact Int64.toInt_ofNat_of_lt (by omega)
  have tenfold : Operator.mul.unbounded? (Int64.ofInt value).toInt (10 : Int64).toInt =
      some ((value * 10 : Nat) : Int) := by
    rw [here, show (10 : Int64).toInt = 10 by decide]
    rfl
  rw [appendDigit?, Operator.checked_eq tenfold]
  simp only [fits_natCast_iff]
  -- Where ten times the value is too large already, the digit cannot make it smaller.
  by_cases large : value * 10 ≤ largestLiteral
  · have back : (Int64.ofInt (value * 10 : Nat)).toInt = (value * 10 : Nat) :=
      toInt_ofInt ((fits_natCast_iff _).mpr large)
    have sum : Operator.add.unbounded? (Int64.ofInt (value * 10 : Nat)).toInt
        (Int64.ofNat digit.toNat).toInt = some ((value * 10 + digit.toNat : Nat) : Int) := by
      rw [back, small]
      rfl
    simp only [if_pos large, Option.bind_some, Operator.checked_eq sum, fits_natCast_iff]
  · rw [if_neg large, if_neg (by omega)]
    rfl

theorem foldDigits_reads (value : Int64) (position : Nat) (tokens : List Token) :
    ∃ read, tokens = read ++ (foldDigits value position tokens).2.2 ∧
      (foldDigits value position tokens).2.1 = position + read.length ∧
      ((foldDigits value position tokens).1 = none → read ≠ []) := by
  fun_induction foldDigits value position tokens with
  | case1 value position digit rest grown here ih =>
      obtain ⟨read, split, place, -⟩ := ih
      refine ⟨.digit digit :: read, ?_, ?_, ?_⟩
      · rw [List.cons_append, ← split]
      · rw [place, List.length_cons]
        omega
      · exact fun _ => List.cons_ne_nil _ _
  | case2 value position digit rest here =>
      exact ⟨[.digit digit], rfl, rfl, fun _ => List.cons_ne_nil _ _⟩
  | case3 value position tokens other => exact ⟨[], rfl, rfl, by simp⟩

theorem foldDigits_eq (value position : Nat) (digits : List UInt8) {rest : List Token}
    (fits : value ≤ largestLiteral) (ends : NoDigitAhead rest) :
    foldDigits (Int64.ofInt value) position (digits.map .digit ++ rest) =
      match overrun? value position digits with
      | none => (some (Int64.ofInt (withDigits value digits : Nat)), position + digits.length, rest)
      | some point =>
        (none, point + 1, (digits.drop (point + 1 - position)).map .digit ++ rest) := by
  fun_induction overrun? value position digits with
  | case1 value position =>
      cases rest with
      | nil => rfl
      | cons token rest =>
          cases token with
          | digit digit => exact absurd rfl (ends digit)
          | openParen | closeParen | operator op => rfl
  | case2 value position digit digits small ih =>
      simp only [List.map_cons, List.cons_append, foldDigits, appendDigit?_eq fits, if_pos small]
      rw [ih small]
      have spec := overrun?_spec (value * 10 + digit.toNat) (position + 1) digits small
      split
      · simp only [withDigits, List.foldl_cons, List.length_cons, Prod.mk.injEq, true_and, and_true]
        omega
      · rename_i point found
        rw [found] at spec
        obtain ⟨i, -, rfl, -⟩ := spec
        rw [show position + 1 + i + 1 - (position + 1) = i + 1 by omega,
          show position + 1 + i + 1 - position = i + 1 + 1 by omega, List.drop_succ_cons]
  | case3 value position digit digits large =>
      simp only [List.map_cons, List.cons_append, foldDigits, appendDigit?_eq fits, if_neg large,
        Nat.add_sub_cancel_left, List.drop_succ_cons, List.drop_zero]

theorem literal_eq (state : State) (digits : List UInt8) {rest : List Token}
    (here : state.rest = digits.map .digit ++ rest) (ends : NoDigitAhead rest) :
    literal state =
      match overrun? 0 state.position digits with
      | none => ⟨.ok (.literal (Int64.ofInt (digitsValue digits : Nat)) state.position),
          ⟨state.position + digits.length, rest, state.reductions⟩⟩
      | some point => ⟨.error (.literalTooLarge state.position),
          ⟨point + 1, (digits.drop (point + 1 - state.position)).map .digit ++ rest,
            state.reductions⟩⟩ := by
  have run := foldDigits_eq 0 state.position digits (Nat.zero_le _) ends
  rw [show Int64.ofInt (0 : Nat) = 0 from rfl] at run
  rw [literal, here, run]
  cases overrun? 0 state.position digits with
  | none => rfl
  | some point => rfl

def Outcome.andThen (outcome : Outcome) (next : Parsed → State → Outcome) : Outcome :=
  match outcome with
  | ⟨.error cause, after⟩ => ⟨.error cause, after⟩
  | ⟨.ok parsed, after⟩ => next parsed after

def close (position : Nat) (parsed : Parsed) (after : State) : Outcome :=
  match after.rest with
  | .closeParen :: _ => ⟨.ok parsed, after.advance⟩
  | _ => ⟨.error (.expectedClosingParen position), after.advance⟩

def extend (accepts : Operator → Bool) (operand : Rule) (op : Operator) (left : Parsed)
    (position : Nat) (right : Parsed) (after : State) : Outcome :=
  if (left.join op right position).depth ≤ maxTreeDepth then
    chainFrom accepts operand (left.join op right position) (after.reduce op position)
  else ⟨.error (.expressionTooDeep position), after⟩

section
variable {accepts : Operator → Bool} {operand : Rule} {left : Parsed} {state : State}
  {rest : List Token} {allowance : Nat}

theorem group_eq (inner : Rule) (state : State) :
    group inner state = (inner state.advance).andThen (close state.position) := by
  rw [group]
  obtain ⟨result, after⟩ := inner state.advance
  cases result with
  | error cause => rfl
  | ok parsed => rfl

theorem chain_eq (accepts : Operator → Bool) (operand : Rule) (state : State) :
    chain accepts operand state = (operand state).andThen (chainFrom accepts operand) := by
  rw [chain]
  obtain ⟨result, after⟩ := operand state
  cases result with
  | error cause => rfl
  | ok parsed => rfl

theorem chainFrom_accepted {op : Operator} (here : state.rest = .operator op :: rest)
    (accepted : accepts op = true) :
    chainFrom accepts operand left state =
      (operand state.advance).andThen (extend accepts operand op left state.position) := by
  unfold chainFrom
  simp only [here, if_pos accepted]
  obtain ⟨result, after⟩ := operand state.advance
  cases result with
  | error cause => rfl
  | ok right => simp only [Outcome.andThen, extend, dite_eq_ite]

theorem chainFrom_ends
    (ends : ∀ op, state.rest.head? = some (.operator op) → accepts op = false) :
    chainFrom accepts operand left state = ⟨.ok left, state⟩ := by
  unfold chainFrom
  split
  · rename_i op rest here
    have refused := ends op (by rw [here, List.head?_cons])
    rw [if_neg (by rw [refused]; exact Bool.false_ne_true)]
  · rfl

theorem factor_digit {digit : UInt8} (here : state.rest = .digit digit :: rest) :
    factor allowance state = literal state := by
  cases allowance <;> simp only [factor, factorOf, here]

theorem factor_open (here : state.rest = .openParen :: rest) :
    factor (allowance + 1) state = group (expressionOf (factor allowance)) state := by
  simp only [factor, factorOf, here]

theorem factor_tooNested (here : state.rest = .openParen :: rest) :
    factor 0 state = tooNested state := by
  simp only [factor, factorOf, here]

theorem factor_end (here : state.rest = []) :
    factor allowance state = ⟨.error .unexpectedEndOfInput, state⟩ := by
  cases allowance <;> simp only [factor, factorOf, here]

theorem factor_unexpected {token : Token} (here : state.rest = token :: rest)
    (other : token.startsFactor = false) :
    factor allowance state = ⟨.error (.unexpectedToken token.text state.position), state⟩ := by
  cases token with
  | openParen | digit => cases other
  | closeParen | operator => cases allowance <;> simp only [factor, factorOf, here]

end

/-- The loop of a repetition ends, or goes on with a deeper tree wherever its operand has
led. What the limit on the depth leaves carries the induction. -/
theorem chainFrom_rec (accepts : Operator → Bool) {holds : Parsed → State → Prop}
    (ends : ∀ left state,
      (∀ op, state.rest.head? = some (.operator op) → accepts op = false) → holds left state)
    (goesOn : ∀ left state op rest, state.rest = .operator op :: rest → accepts op = true →
      (∀ right, (left.join op right state.position).depth ≤ maxTreeDepth →
        ∀ after, holds (left.join op right state.position) after) →
      holds left state)
    (left : Parsed) (state : State) : holds left state := by
  induction room : maxTreeDepth - left.depth using Nat.strongRecOn generalizing left state with
  | ind room ih =>
      by_cases next : ∃ op rest, state.rest = .operator op :: rest ∧ accepts op = true
      · obtain ⟨op, rest, here, accepted⟩ := next
        apply goesOn left state op rest here accepted
        intro right shallow after
        have deeper := left.depth_lt_join op right state.position
        exact ih _ (by omega) _ after rfl
      · apply ends left state
        intro op head
        obtain ⟨rest, here⟩ := List.head?_eq_some_iff.mp head
        exact Bool.eq_false_iff.mpr fun accepted => next ⟨op, rest, here, accepted⟩

/-- A property of rules that a rule has as soon as its parts have it. -/
structure Compositional (holds : Rule → Prop) : Prop where
  tooNested : holds tooNested
  factorOf : ∀ {group : Rule}, holds group → holds (factorOf group)
  group : ∀ {inner : Rule}, holds inner → holds (group inner)
  chain : ∀ (accepts : Operator → Bool) {operand : Rule}, holds operand →
    holds (chain accepts operand)

namespace Compositional

variable {holds : Rule → Prop}

theorem termOf (closed : Compositional holds) {factor : Rule} (part : holds factor) :
    holds (termOf factor) :=
  closed.chain _ part

theorem expressionOf (closed : Compositional holds) {factor : Rule} (part : holds factor) :
    holds (expressionOf factor) :=
  closed.chain _ (closed.termOf part)

theorem factor (closed : Compositional holds) (allowance : Nat) :
    holds (Parser.factor allowance) := by
  induction allowance with
  | zero => exact closed.factorOf closed.tooNested
  | succ allowance ih => exact closed.factorOf (closed.group (closed.expressionOf ih))

theorem term (closed : Compositional holds) (nesting : Nat) : holds (Parser.term nesting) :=
  closed.termOf (closed.factor _)

theorem expression (closed : Compositional holds) (nesting : Nat) :
    holds (Parser.expression nesting) :=
  closed.expressionOf (closed.factor _)

end Compositional

end Arith.Parser
