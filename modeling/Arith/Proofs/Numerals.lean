/-! Numerals in front of further text.

A numeral reaches as far as there are digits. It can be read back from a text that goes on
behind it with anything but a digit, so two such texts agree only if both the numbers and
what comes behind them do.
-/

set_option autoImplicit false

namespace Arith

/-- A numeral in front of the text ends there: the text is empty or begins with something
other than a digit. -/
def EndsNumeral (text : List Char) : Prop :=
  ∀ c ∈ text.head?, c.isDigit = false

theorem endsNumeral_nil : EndsNumeral [] :=
  nofun

theorem endsNumeral_cons {c : Char} (other : c.isDigit = false) (rest : List Char) :
    EndsNumeral (c :: rest) := by
  rintro _ ⟨⟩
  exact other

def readNat (text : List Char) : Nat × List Char :=
  (Nat.ofDigitChars 10 (text.takeWhile Char.isDigit) 0, text.dropWhile Char.isDigit)

def readInt : List Char → Int × List Char
  | '-' :: text => (-(readNat text).1, (readNat text).2)
  | text => ((readNat text).1, (readNat text).2)

theorem readNat_toDigits (value : Nat) {rest : List Char} (apart : EndsNumeral rest) :
    readNat (Nat.toDigits 10 value ++ rest) = (value, rest) := by
  have digits : ∀ c ∈ Nat.toDigits 10 value, c.isDigit = true :=
    fun _ member => Nat.isDigit_of_mem_toDigits (by decide) (by decide) member
  rw [readNat, List.takeWhile_append_of_pos digits, List.dropWhile_append_of_pos digits]
  cases rest with
  | nil =>
      rw [List.takeWhile_nil, List.dropWhile_nil, List.append_nil, Nat.ofDigitChars_ten_toDigits]
  | cons c rest =>
      have other : ¬ c.isDigit = true := by rw [apart c rfl]; decide
      rw [List.takeWhile_cons_of_neg other, List.dropWhile_cons_of_neg other, List.append_nil,
        Nat.ofDigitChars_ten_toDigits]

theorem toDigits_append_inj {first second : Nat} {rest other : List Char}
    (apart : EndsNumeral rest) (otherApart : EndsNumeral other)
    (same : Nat.toDigits 10 first ++ rest = Nat.toDigits 10 second ++ other) :
    first = second ∧ rest = other := by
  have read := congrArg readNat same
  rw [readNat_toDigits first apart, readNat_toDigits second otherApart] at read
  exact Prod.mk.inj read

/-- Unsigned digits do not begin with a sign. -/
theorem readInt_toDigits (value : Nat) {rest : List Char} (apart : EndsNumeral rest) :
    readInt (Nat.toDigits 10 value ++ rest) = ((value : Int), rest) := by
  have read := readNat_toDigits value apart
  cases digits : Nat.toDigits 10 value with
  | nil => exact absurd digits Nat.toDigits_ne_nil
  | cons c behind =>
      have digit : c.isDigit = true := by
        have first : c ∈ Nat.toDigits 10 value := by rw [digits]; exact List.mem_cons_self
        exact Nat.isDigit_of_mem_toDigits (by decide) (by decide) first
      rw [digits, List.cons_append] at read
      rw [List.cons_append, readInt, read]
      -- the other case of `readInt` would need a first digit that is a minus sign
      rintro text ⟨⟩
      cases digit

theorem toList_toString (value : Nat) : (toString value).toList = Nat.toDigits 10 value := by
  rw [Nat.toString_eq_ofList_toDigits, String.toList_ofList]

theorem readInt_toString (value : Int) {rest : List Char} (apart : EndsNumeral rest) :
    readInt ((toString value).toList ++ rest) = (value, rest) := by
  have unsigned (magnitude : Nat) : magnitude.repr.toList = Nat.toDigits 10 magnitude :=
    toList_toString magnitude
  rw [Int.toString_eq_repr, Int.repr_eq_if]
  split
  · next nonNegative =>
    rw [unsigned, readInt_toDigits _ apart, Int.toNat_of_nonneg nonNegative]
  · next negative =>
    have sign : "-".toList = ['-'] := by decide
    rw [String.toList_append, unsigned, sign, List.singleton_append, List.cons_append, readInt,
      readNat_toDigits _ apart, Int.toNat_of_nonneg (by omega), Int.neg_neg]

end Arith
