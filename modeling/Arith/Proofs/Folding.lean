import Arith.Proofs.Decimal
import Arith.Proofs.Parser.Phrases
import Mathlib.Algebra.BigOperators.Fin
import Mathlib.Order.Bounds.Defs
import Mathlib.Tactic.Ring

/-! Literals at the edge of the words.

A run is folded in words, with a look at each step. Since a value never shrinks by a further
digit, a step leaves the words only if the whole run does: the literal has the value of its
digits by their places, or is refused at the first digit from which that is too large.
-/

set_option autoImplicit false

namespace Arith

open Arith.Parser

/-- The digits by their places: the last counts once, each other ten times as much as the
one behind it. A digit may be any byte. -/
def placeValue (digits : List UInt8) : Nat :=
  ∑ i : Fin digits.length, digits[i].toNat * 10 ^ (digits.length - (i + 1))

theorem placeValue_cons (digit : UInt8) (digits : List UInt8) :
    placeValue (digit :: digits) = digit.toNat * 10 ^ digits.length + placeValue digits := by
  simp only [placeValue, List.length_cons]
  rw [Fin.sum_univ_succ]
  simp

theorem withDigits_eq (value : Nat) (digits : List UInt8) :
    withDigits value digits = value * 10 ^ digits.length + placeValue digits := by
  induction digits generalizing value with
  | nil => simp [withDigits, placeValue]
  | cons digit digits ih =>
      have further : withDigits value (digit :: digits) =
          withDigits (value * 10 + digit.toNat) digits := rfl
      rw [further, ih, placeValue_cons, List.length_cons]
      ring

theorem digitsValue_eq_placeValue (digits : List UInt8) :
    digitsValue digits = placeValue digits := by
  rw [digitsValue, withDigits_eq, Nat.zero_mul, Nat.zero_add]

theorem largestLiteral_eq : largestLiteral = 2 ^ 63 - 1 := by
  decide

/-- The digit with which a run grows too large is the last of the fewest that are too large. -/
theorem GrowsTooLargeAt.isLeast {digits : List UInt8} {i : Nat}
    (grows : GrowsTooLargeAt digits i) :
    IsLeast {count | largestLiteral < digitsValue (digits.take count)} (i + 1) := by
  refine ⟨grows.after, ?_⟩
  intro count large
  apply Nat.lt_of_not_le
  intro fewer
  have le := digitsValue_take_le digits fewer
  have small := grows.before
  exact absurd large (Nat.not_lt.mpr (Nat.le_trans le small))

section
variable {state : State} {digits : List UInt8} {rest : List Token}

theorem literal_small (here : state.rest = digits.map .digit ++ rest) (ends : NoDigitAhead rest)
    (small : digitsValue digits ≤ largestLiteral) :
    literal state = ⟨.ok (.literal (Int64.ofInt (digitsValue digits : Nat)) state.position),
      ⟨state.position + digits.length, rest, state.reductions⟩⟩ := by
  rw [literal_eq state digits here ends, (overrun?_eq_none_iff state.position digits).mpr small]

theorem literal_large (here : state.rest = digits.map .digit ++ rest) (ends : NoDigitAhead rest)
    {i : Nat} (grows : GrowsTooLargeAt digits i) :
    literal state = ⟨.error (.literalTooLarge state.position),
      ⟨state.position + (i + 1), (digits.drop (i + 1)).map .digit ++ rest,
        state.reductions⟩⟩ := by
  have found := (overrun?_eq_some_iff state.position digits _).mpr ⟨i, rfl, grows⟩
  rw [literal_eq state digits here ends, found]
  simp only [Nat.add_assoc, Nat.add_sub_cancel_left]

theorem factor_digits (here : state.rest = digits.map .digit ++ rest) (nonempty : digits ≠ [])
    (allowance : Nat) : factor allowance state = literal state := by
  obtain ⟨digit, digits, rfl⟩ := List.exists_cons_of_ne_nil nonempty
  exact factor_digit here

end

theorem withDigits_zeros (zeros : Nat) : withDigits 0 (List.replicate zeros 0) = 0 := by
  induction zeros with
  | zero => rfl
  | succ zeros ih => exact ih

def paddedDigits (zeros value : Nat) : List UInt8 :=
  List.replicate zeros 0 ++ decimalDigits value

theorem digitsValue_paddedDigits (zeros value : Nat) :
    digitsValue (paddedDigits zeros value) = value := by
  have digits := digitsValue_decimalDigits value
  rw [digitsValue] at digits
  rw [digitsValue, paddedDigits, withDigits_append, withDigits_zeros, digits]

theorem lex_padded (zeros value : Nat) :
    lex (String.ofList (List.replicate zeros '0') ++ toString value) =
      (paddedDigits zeros value).map .digit := by
  have zero : Token.ofChar? '0' = some (.digit 0) := by decide
  rw [lex_append, lex_toString, paddedDigits, List.map_append, List.map_replicate, lex,
    String.toList_ofList, List.filterMap_replicate_of_some zero]

theorem parse_digits {digits : List UInt8} (nonempty : digits ≠ []) :
    parse (digits.map .digit) =
      if digitsValue digits ≤ largestLiteral then .ok (Int64.ofInt (digitsValue digits : Nat))
      else .error (.literalTooLarge 0) := by
  let phrase : Phrase .expression := .operand (.operand (.literal digits nonempty) : Phrase .term)
  have spelled : digits.map .digit = phrase.tokens := rfl
  have faults : phrase.faults 0 0 = (Phrase.literal digits nonempty).faults 0 0 := rfl
  rw [spelled, parse, parseTree_tokens, faults, Phrase.faults]
  cases found : overrun? 0 0 digits with
  | none =>
      rw [if_pos ((overrun?_eq_none_iff 0 digits).mp found)]
      rfl
  | some point =>
      obtain ⟨i, -, grows⟩ := (overrun?_eq_some_iff 0 digits point).mp found
      rw [if_neg (Nat.not_le.mpr grows.too_large)]

theorem calculate_padded (zeros value : Nat) :
    calculate (String.ofList (List.replicate zeros '0') ++ toString value) =
      if value ≤ largestLiteral then .ok (Int64.ofInt value) else .error (.literalTooLarge 0) := by
  have nonempty : paddedDigits zeros value ≠ [] :=
    List.append_ne_nil_of_right_ne_nil _ (decimalDigits_ne_nil value)
  rw [calculate, lex_padded, parse_digits nonempty, digitsValue_paddedDigits]

/-- A run is a literal with the value of its digits by their places exactly if that is a
word, and is consumed as a whole. Otherwise it is refused with the fewest digits consumed
that are too large. Leading zeros make no difference. -/
theorem folding_exact :
    (∀ (state : State) (digits : List UInt8) (rest : List Token), digits ≠ [] →
      state.rest = digits.map .digit ++ rest → NoDigitAhead rest →
      (∀ allowance, factor allowance state = literal state) ∧
      ((∃ word : Int64, word.toInt = placeValue digits ∧
        literal state = ⟨.ok (.literal word state.position),
          ⟨state.position + digits.length, rest, state.reductions⟩⟩) ↔
        placeValue digits ≤ 2 ^ 63 - 1) ∧
      (2 ^ 63 - 1 < placeValue digits → ∃ count,
        IsLeast {count | 2 ^ 63 - 1 < digitsValue (digits.take count)} count ∧
        literal state = ⟨.error (.literalTooLarge state.position),
          ⟨state.position + count, (digits.drop count).map .digit ++ rest,
            state.reductions⟩⟩)) ∧
    ∀ zeros value : Nat,
      (value ≤ 2 ^ 63 - 1 → ∃ word : Int64, word.toInt = value ∧
        calculate (String.ofList (List.replicate zeros '0') ++ toString value) = .ok word) ∧
      (2 ^ 63 ≤ value →
        calculate (String.ofList (List.replicate zeros '0') ++ toString value) =
          .error (.literalTooLarge 0)) := by
  rw [← largestLiteral_eq]
  refine ⟨?_, ?_⟩
  · intro state digits rest nonempty here ends
    rw [← digitsValue_eq_placeValue]
    have refused (large : largestLiteral < digitsValue digits) : ∃ count,
        IsLeast {count | largestLiteral < digitsValue (digits.take count)} count ∧
        literal state = ⟨.error (.literalTooLarge state.position),
          ⟨state.position + count, (digits.drop count).map .digit ++ rest,
            state.reductions⟩⟩ := by
      obtain ⟨i, grows⟩ := exists_growsTooLarge large
      exact ⟨i + 1, grows.isLeast, literal_large here ends grows⟩
    refine ⟨factor_digits here nonempty, ⟨?_, ?_⟩, refused⟩
    · rintro ⟨word, -, read⟩
      apply Nat.le_of_not_lt
      intro large
      obtain ⟨count, -, other⟩ := refused large
      rw [read] at other
      cases other
    · intro small
      exact ⟨_, toInt_ofInt ((fits_natCast_iff _).mpr small), literal_small here ends small⟩
  · intro zeros value
    rw [calculate_padded]
    constructor
    · intro small
      rw [if_pos small]
      exact ⟨_, toInt_ofInt ((fits_natCast_iff _).mpr small), rfl⟩
    · intro large
      rw [if_neg (by rw [largestLiteral_eq]; omega)]

theorem folding_beyond_the_edge :
    NoDigitAhead [.closeParen] ∧
    2 ^ 63 - 1 < placeValue (255 :: 200 :: List.replicate 20 7) ∧
    (∃ count,
      IsLeast {count |
        2 ^ 63 - 1 < digitsValue ((255 :: 200 :: List.replicate 20 7).take count)} count ∧
      literal (.start 4 ((255 :: 200 :: List.replicate 20 7).map .digit ++ [.closeParen])) =
        ⟨.error (.literalTooLarge 4), ⟨4 + count,
          ((255 :: 200 :: List.replicate 20 7).drop count).map .digit ++ [.closeParen], []⟩⟩) ∧
    calculate (String.ofList (List.replicate 3 '0') ++ toString (2 ^ 63)) =
      .error (.literalTooLarge 0) := by
  have ends : NoDigitAhead [.closeParen] := by simp [NoDigitAhead]
  have large : 2 ^ 63 - 1 < placeValue (255 :: 200 :: List.replicate 20 7) := by
    rw [← digitsValue_eq_placeValue]
    decide
  have run := folding_exact.1 (.start 4 _) (255 :: 200 :: List.replicate 20 7) [.closeParen]
    (List.cons_ne_nil _ _) rfl ends
  exact ⟨ends, large, run.2.2 large, (folding_exact.2 3 (2 ^ 63)).2 (Nat.le_refl _)⟩

end Arith
