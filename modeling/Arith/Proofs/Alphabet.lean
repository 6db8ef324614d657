import Arith.Proofs.Decimal

/-! The characters that are tokens.

Each of them is what its token prints as, and each token that holds no more than a decimal
digit is read from what it prints as.
-/

set_option autoImplicit false

namespace Arith

def alphabet : List Char :=
  "0123456789+-*/()".toList

namespace Token

def IsDecimal (token : Token) : Prop :=
  ∀ value, token = .digit value → value.toNat ≤ 9

def char : Token → Char
  | .openParen => '('
  | .closeParen => ')'
  | .digit value => value.toNat.digitChar
  | .operator op => op.symbol

variable {token : Token}

theorem toList_text (decimal : token.IsDecimal) : token.text.toList = [token.char] := by
  cases token with
  | openParen => decide
  | closeParen => decide
  | operator op => exact String.toList_singleton op.symbol
  | digit value =>
      have below : value.toNat < 10 := Nat.lt_succ_of_le (decimal value rfl)
      rw [text, char, Nat.toString_eq_ofList_toDigits, String.toList_ofList,
        Nat.toDigits_of_lt_base below]

theorem ofChar?_char (decimal : token.IsDecimal) : ofChar? token.char = some token := by
  cases token with
  | openParen => rfl
  | closeParen => rfl
  | operator op => cases op <;> rfl
  | digit value =>
      have below : value.toNat < 10 := Nat.lt_succ_of_le (decimal value rfl)
      have digit : value.toNat.digitChar.isDigit = true := by
        rw [Nat.isDigit_digitChar, decide_eq_true below]
      rw [char, ofChar?_of_isDigit digit, digitOfChar_digitChar (decimal value rfl)]

theorem ofChar?_eq_some {c : Char} (found : ofChar? c = some token) :
    token.IsDecimal ∧ token.char = c := by
  unfold ofChar? at found
  split at found
  · cases found
    exact ⟨nofun, rfl⟩
  · cases found
    exact ⟨nofun, rfl⟩
  · split at found
    · next digit =>
      cases found
      refine ⟨?_, digitChar_digitOfChar digit⟩
      rintro _ ⟨⟩
      exact toNat_digitOfChar_le digit
    · obtain ⟨op, isOperator, rfl⟩ := Option.map_eq_some_iff.mp found
      exact ⟨nofun, Operator.symbol_of_ofChar? isOperator⟩

theorem char_mem_alphabet (decimal : token.IsDecimal) : token.char ∈ alphabet := by
  cases token with
  | openParen => decide
  | closeParen => decide
  | operator op => cases op <;> decide
  | digit value =>
      have each : ∀ digit < 10, digit.digitChar ∈ alphabet := by decide
      exact each _ (Nat.lt_succ_of_le (decimal value rfl))

theorem ofChar?_eq_none_iff (c : Char) : ofChar? c = none ↔ c ∉ alphabet := by
  constructor
  · intro skipped member
    have each : (alphabet.all fun c => (ofChar? c).isSome) = true := by decide
    have found := List.all_eq_true.mp each c member
    rw [skipped] at found
    cases found
  · intro outside
    cases found : ofChar? c with
    | none => rfl
    | some token =>
        obtain ⟨decimal, rfl⟩ := ofChar?_eq_some found
        exact absurd (char_mem_alphabet decimal) outside

end Token

end Arith
