import Arith.Command.Run
import Arith.Proofs.Numerals

/-! Errors from their messages.

A message says where the error is, if it is anywhere, and then what is wrong. The place is a
number between fixed words, and complaints of different kinds differ in their first letters.
So a text that a message embeds, whatever it is, comes behind the part that tells the kind,
and a fixed end follows it.
-/

set_option autoImplicit false

namespace Arith

theorem take_toList_append {count : Nat} {words opening : String}
    (begins : words.toList.take count = opening.toList) (long : count ≤ words.toList.length)
    (rest : String) : (words ++ rest).toList.take count = opening.toList := by
  rw [String.toList_append, List.take_append_of_le_length long, begins]

theorem between_inj {before after first second : String}
    (same : before ++ (first ++ after) = before ++ (second ++ after)) : first = second := by
  rwa [String.append_right_inj, String.append_left_inj] at same

inductive Complaint where
  | unexpectedToken (token : String)
  | expectedClosingParen
  | unexpectedTrailingTokens (token : String)
  | literalTooLarge
  | nestingTooDeep
  | expressionTooDeep
  | divisionByZero
  | overflow (op : Operator)
  deriving DecidableEq, Repr

namespace Complaint

def text : Complaint → String
  | .unexpectedToken token => ": Expected a number or '(' but found '" ++ (token ++ "'.")
  | .expectedClosingParen => ": Expected closing parenthesis ')' but none found."
  | .unexpectedTrailingTokens token =>
    ": Extra tokens after expression, starting with '" ++ (token ++ "'.")
  | .literalTooLarge => ": Literal is too large."
  | .nestingTooDeep => ": Parentheses are nested too deeply."
  | .expressionTooDeep => ": Expression is nested too deeply."
  | .divisionByZero => ": Division by zero."
  | .overflow op => ": Integer overflow in '" ++ (op.symbol.toString ++ "'.")

def opening : Complaint → String
  | .unexpectedToken _ => ": Expected a"
  | .expectedClosingParen => ": Expected c"
  | .unexpectedTrailingTokens _ => ": Extra toke"
  | .literalTooLarge => ": Literal is"
  | .nestingTooDeep => ": Parenthese"
  | .expressionTooDeep => ": Expression"
  | .divisionByZero => ": Division b"
  | .overflow _ => ": Integer ov"

theorem take_text (complaint : Complaint) :
    complaint.text.toList.take 12 = complaint.opening.toList := by
  cases complaint with
  | unexpectedToken token => exact take_toList_append (by simp only [opening]; decide) (by decide) _
  | unexpectedTrailingTokens token =>
      exact take_toList_append (by simp only [opening]; decide) (by decide) _
  | overflow op => exact take_toList_append (by simp only [opening]; decide) (by decide) _
  | _ => decide

theorem endsNumeral_text (complaint : Complaint) : EndsNumeral complaint.text.toList := by
  have colon : complaint.opening.toList.head? = some ':' := by
    cases complaint <;> simp only [opening] <;> decide
  rw [← take_text, List.head?_take, if_neg (by decide)] at colon
  intro c member
  rw [colon] at member
  cases member
  decide

theorem eq_of_text {first second : Complaint} (same : first.text = second.text) :
    first = second := by
  have kind : first.opening = second.opening := by
    rw [← String.toList_inj, ← take_text, same, take_text]
  cases first <;> cases second
  case unexpectedToken.unexpectedToken token other =>
    exact congrArg unexpectedToken (between_inj same)
  case unexpectedTrailingTokens.unexpectedTrailingTokens token other =>
    exact congrArg unexpectedTrailingTokens (between_inj same)
  case overflow.overflow op other =>
    have symbols := String.singleton_inj.mp (between_inj same)
    exact congrArg overflow (Operator.symbol_inj symbols)
  -- what is left are the complaints without a part of their own, and pairs of unequal kinds
  all_goals first
    | rfl
    | exact absurd kind (by simp [opening])

end Complaint

namespace ParseError

def parts? : ParseError → Option (Nat × Complaint)
  | .unexpectedToken token position => some (position, .unexpectedToken token)
  | .unexpectedEndOfInput => none
  | .expectedClosingParen position => some (position, .expectedClosingParen)
  | .unexpectedTrailingTokens token position => some (position, .unexpectedTrailingTokens token)
  | .literalTooLarge position => some (position, .literalTooLarge)
  | .nestingTooDeep position => some (position, .nestingTooDeep)
  | .expressionTooDeep position => some (position, .expressionTooDeep)
  | .evaluation (.divisionByZero position) => some (position, .divisionByZero)
  | .evaluation (.overflow op position) => some (position, .overflow op)

def messageOf : Option (Nat × Complaint) → String
  | none => "Error: Unexpected end of input, expected a number or '('."
  | some (position, complaint) => "Error at token " ++ toString position ++ complaint.text

theorem message_eq (cause : ParseError) : cause.message = messageOf cause.parts? := by
  cases cause with
  | evaluation cause =>
      cases cause with
      | divisionByZero position => rfl
      | overflow op position => exact String.append_assoc.trans String.append_assoc
  | unexpectedToken token position => exact String.append_assoc.trans String.append_assoc
  | unexpectedTrailingTokens token position => exact String.append_assoc.trans String.append_assoc
  | _ => rfl

def ofParts : Option (Nat × Complaint) → ParseError
  | none => .unexpectedEndOfInput
  | some (position, .unexpectedToken token) => .unexpectedToken token position
  | some (position, .expectedClosingParen) => .expectedClosingParen position
  | some (position, .unexpectedTrailingTokens token) => .unexpectedTrailingTokens token position
  | some (position, .literalTooLarge) => .literalTooLarge position
  | some (position, .nestingTooDeep) => .nestingTooDeep position
  | some (position, .expressionTooDeep) => .expressionTooDeep position
  | some (position, .divisionByZero) => .evaluation (.divisionByZero position)
  | some (position, .overflow op) => .evaluation (.overflow op position)

theorem ofParts_parts? (cause : ParseError) : ofParts cause.parts? = cause := by
  cases cause with
  | evaluation cause => cases cause <;> rfl
  | _ => rfl

/-- The first six characters tell a message without a place. -/
theorem messageOf_none_ne (position : Nat) (complaint : Complaint) :
    messageOf none ≠ messageOf (some (position, complaint)) := by
  intro same
  have words : messageOf none = "Error at token " ++ (toString position ++ complaint.text) :=
    same.trans String.append_assoc
  have placed : ("Error at token " ++ (toString position ++ complaint.text)).toList.take 6 =
      "Error ".toList :=
    take_toList_append (by decide) (by decide) _
  rw [← words] at placed
  exact absurd placed (by decide)

theorem parts_eq_of_messageOf {first second : Option (Nat × Complaint)}
    (same : messageOf first = messageOf second) : first = second := by
  cases first with
  | none =>
      cases second with
      | none => rfl
      | some parts => exact absurd same (messageOf_none_ne parts.1 parts.2)
  | some parts =>
      cases second with
      | none => exact absurd same.symm (messageOf_none_ne parts.1 parts.2)
      | some others =>
          have words := (String.append_assoc.symm.trans same).trans String.append_assoc
          have chars := congrArg String.toList ((String.append_right_inj _).mp words)
          rw [String.toList_append, String.toList_append, toList_toString, toList_toString] at chars
          -- a colon follows either number, so they end at the same place
          obtain ⟨position, texts⟩ :=
            toDigits_append_inj parts.2.endsNumeral_text others.2.endsNumeral_text chars
          have complaint := Complaint.eq_of_text (String.toList_injective texts)
          exact congrArg some (Prod.ext position complaint)

theorem message_inj {first second : ParseError} :
    first.message = second.message ↔ first = second := by
  constructor
  · intro same
    rw [message_eq, message_eq] at same
    rw [← first.ofParts_parts?, parts_eq_of_messageOf same, ofParts_parts?]
  · rintro rfl
    rfl

end ParseError

open Command

theorem stderr_of_rejected {tree : Bool} {source : String} {cause : ParseError}
    (rejected : answer tree (lex source) = .error cause) (listTokens : Bool) :
    (runSource tree listTokens source).stderr = cause.message ++ "\n" := by
  simp only [runSource, rejected]

/-- Messages tell errors apart, and so does what is printed for texts that are rejected. -/
theorem messages_exact :
    (∀ first second : ParseError, first.message = second.message ↔ first = second) ∧
    ∀ (tree otherTree listTokens otherListTokens : Bool) (source other : String)
      (cause otherCause : ParseError),
      answer tree (lex source) = .error cause → answer otherTree (lex other) = .error otherCause →
      ((runSource tree listTokens source).stderr =
        (runSource otherTree otherListTokens other).stderr ↔ cause = otherCause) := by
  refine ⟨fun _ _ => ParseError.message_inj, ?_⟩
  intro tree otherTree listTokens otherListTokens source other cause otherCause
    rejected otherRejected
  rw [stderr_of_rejected rejected, stderr_of_rejected otherRejected, String.append_left_inj]
  exact ParseError.message_inj

theorem messages_missing_operand :
    answer false (lex ")") = .error (.unexpectedToken ")" 0) ∧
    answer true (lex "*") = .error (.unexpectedToken "*" 0) ∧
    (runSource false true ")").stderr ≠ (runSource true false "*").stderr := by
  have closing : answer false (lex ")") = .error (.unexpectedToken ")" 0) := rfl
  have product : answer true (lex "*") = .error (.unexpectedToken "*" 0) := rfl
  have told := messages_exact.2 false true true false _ _ _ _ closing product
  exact ⟨closing, product, fun same => absurd (told.mp same) (by decide)⟩

end Arith
