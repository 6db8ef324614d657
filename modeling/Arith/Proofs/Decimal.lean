import Arith.Lexing
import Arith.Proofs.Layout
import Mathlib.Data.List.Basic
import Mathlib.Data.List.Induction

/-! Numbers as runs of digits.

The decimal form of a number is lexed as a run of digits, and its value as a run is the
number. A run of decimal digits is the decimal form of its value if it has no leading zero.
-/

set_option autoImplicit false

namespace Arith

def digitOfChar (c : Char) : UInt8 :=
  (c.toNat - '0'.toNat).toUInt8

def decimalDigits (value : Nat) : List UInt8 :=
  (Nat.toDigits 10 value).map digitOfChar

theorem toNat_digitOfChar {c : Char} (digit : c.isDigit = true) :
    (digitOfChar c).toNat = c.toNat - '0'.toNat := by
  have bound := (Char.isDigit_iff_toNat.mp digit).2
  rw [show '9'.toNat = 57 by decide] at bound
  rw [digitOfChar, Nat.toUInt8, UInt8.toNat_ofNat', Nat.mod_eq_of_lt]
  omega

theorem Token.ofChar?_of_isDigit {c : Char} (digit : c.isDigit = true) :
    Token.ofChar? c = some (.digit (digitOfChar c)) := by
  unfold Token.ofChar?
  split
  · cases digit
  · cases digit
  · rw [if_pos digit]
    rfl

theorem decimalDigits_ne_nil (value : Nat) : decimalDigits value ≠ [] := by
  rw [decimalDigits, ne_eq, List.map_eq_nil_iff]
  exact Nat.toDigits_ne_nil

theorem isDigit_of_mem_toDigits (value : Nat) : ∀ c ∈ Nat.toDigits 10 value, c.isDigit = true :=
  fun _ member => Nat.isDigit_of_mem_toDigits (by decide) (by decide) member

theorem lex_toString (value : Nat) : lex (toString value) = (decimalDigits value).map .digit := by
  rw [lex, Nat.toString_eq_ofList_toDigits, String.toList_ofList, decimalDigits, List.map_map,
    ← List.filterMap_eq_map]
  apply List.filterMap_congr
  intro c member
  exact Token.ofChar?_of_isDigit (isDigit_of_mem_toDigits value c member)

theorem withDigits_map_digitOfChar (value : Nat) (chars : List Char)
    (digits : ∀ c ∈ chars, c.isDigit = true) :
    withDigits value (chars.map digitOfChar) = Nat.ofDigitChars 10 chars value := by
  induction chars generalizing value with
  | nil => rfl
  | cons c rest ih =>
      have here := toNat_digitOfChar (digits c List.mem_cons_self)
      have behind := ih (value * 10 + (digitOfChar c).toNat)
        fun other member => digits other (List.mem_cons_of_mem c member)
      rw [Nat.ofDigitChars_cons, Nat.mul_comm 10, ← here]
      exact behind

theorem digitsValue_decimalDigits (value : Nat) : digitsValue (decimalDigits value) = value := by
  rw [digitsValue, decimalDigits, withDigits_map_digitOfChar 0 _ (isDigit_of_mem_toDigits value),
    Nat.ofDigitChars_ten_toDigits]

theorem digitOfChar_digitChar {digit : UInt8} (decimal : digit.toNat ≤ 9) :
    digitOfChar digit.toNat.digitChar = digit := by
  have each : ∀ value, value < 10 → digitOfChar value.digitChar = UInt8.ofNat value := by decide
  rw [each _ (Nat.lt_succ_of_le decimal), UInt8.ofNat_toNat]

theorem toNat_digitOfChar_le {c : Char} (digit : c.isDigit = true) :
    (digitOfChar c).toNat ≤ 9 := by
  have greatest := (Char.isDigit_iff_toNat.mp digit).2
  rw [show '9'.toNat = 57 by decide] at greatest
  rw [toNat_digitOfChar digit, show '0'.toNat = 48 by decide]
  omega

theorem digitChar_digitOfChar {c : Char} (digit : c.isDigit = true) :
    (digitOfChar c).toNat.digitChar = c := by
  have least := (Char.isDigit_iff_toNat.mp digit).1
  apply Char.toNat_inj.mp
  rw [Nat.toNat_digitChar_of_lt_ten (Nat.lt_succ_of_le (toNat_digitOfChar_le digit)),
    toNat_digitOfChar digit]
  exact Nat.add_sub_cancel' least

theorem decimalDigits_single {digit : UInt8} (decimal : digit.toNat ≤ 9) :
    decimalDigits digit.toNat = [digit] := by
  rw [decimalDigits, Nat.toDigits_of_lt_base (Nat.lt_succ_of_le decimal), List.map_singleton,
    digitOfChar_digitChar decimal]

theorem decimalDigits_concat {value : Nat} (pos : 0 < value) {digit : UInt8}
    (decimal : digit.toNat ≤ 9) :
    decimalDigits (value * 10 + digit.toNat) = decimalDigits value ++ [digit] := by
  have split := Nat.toDigits_append_toDigits (by decide : 1 < 10) pos (Nat.lt_succ_of_le decimal)
  rw [decimalDigits, Nat.mul_comm, ← split, List.map_append, ← decimalDigits, ← decimalDigits,
    decimalDigits_single decimal]

theorem digitsValue_concat (digits : List UInt8) (digit : UInt8) :
    digitsValue (digits ++ [digit]) = digitsValue digits * 10 + digit.toNat := by
  rw [digitsValue, withDigits_append]
  rfl

theorem digitsValue_pos {digits : List UInt8} (nonempty : digits ≠ [])
    (noLeadingZero : digits.head? ≠ some 0) : 0 < digitsValue digits := by
  obtain ⟨digit, rest, rfl⟩ := List.exists_cons_of_ne_nil nonempty
  have first : digit.toNat ≠ 0 := by
    intro zero
    rw [List.head?_cons, UInt8.toNat_inj.mp (zero.trans UInt8.toNat_zero.symm)] at noLeadingZero
    exact noLeadingZero rfl
  have further : 0 * 10 + digit.toNat ≤ digitsValue (digit :: rest) :=
    le_withDigits (0 * 10 + digit.toNat) rest
  omega

theorem eq_decimalDigits {digits : List UInt8} (nonempty : digits ≠ [])
    (decimal : ∀ digit ∈ digits, digit.toNat ≤ 9)
    (noLeadingZero : 1 < digits.length → digits.head? ≠ some 0) :
    digits = decimalDigits (digitsValue digits) := by
  induction digits using List.reverseRecOn with
  | nil => exact absurd rfl nonempty
  | append_singleton digits digit ih =>
      have last := decimal digit (List.mem_append_right _ List.mem_cons_self)
      rw [digitsValue_concat]
      by_cases alone : digits = []
      · subst alone
        have value : digitsValue [] * 10 + digit.toNat = digit.toNat := Nat.zero_add _
        rw [value, decimalDigits_single last, List.nil_append]
      · -- The digits before the last have no leading zero, so their value is not zero.
        have long : 1 < (digits ++ [digit]).length := by
          have pos := List.length_pos_iff.mpr alone
          rw [List.length_append, List.length_singleton]
          omega
        have first := noLeadingZero long
        rw [List.head?_append_of_ne_nil _ alone] at first
        have before := ih alone (fun other member => decimal other (List.mem_append_left _ member))
          fun _ => first
        rw [decimalDigits_concat (digitsValue_pos alone first) last, ← before]

end Arith
