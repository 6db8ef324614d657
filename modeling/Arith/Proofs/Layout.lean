import Arith.Proofs.Words
import Arith.Token

/-! What can be read off a token sequence without parsing it: the parentheses that are
open at a place, whether an operand is due there, and the runs of digits.
-/

set_option autoImplicit false

namespace Arith

/-- The positions of the open parentheses after one more token, innermost first. A
closing parenthesis that closes nothing is passed over. -/
def openedAfter (opened : List Nat) (position : Nat) : Token → List Nat
  | .openParen => position :: opened
  | .closeParen => opened.tail
  | _ => opened

def unclosedFrom (opened : List Nat) (position : Nat) : List Token → List Nat
  | [] => opened
  | token :: rest => unclosedFrom (openedAfter opened position token) (position + 1) rest

/-- The positions of the parentheses that a sequence leaves open, innermost first. -/
def unclosed (tokens : List Token) : List Nat :=
  unclosedFrom [] 0 tokens

theorem unclosedFrom_append (opened : List Nat) (position : Nat) (first second : List Token) :
    unclosedFrom opened position (first ++ second) =
      unclosedFrom (unclosedFrom opened position first) (position + first.length) second := by
  induction first generalizing opened position with
  | nil => rfl
  | cons token rest ih =>
      simp only [List.cons_append, unclosedFrom, ih, List.length_cons]
      rw [Nat.add_right_comm, Nat.add_assoc]

theorem unclosed_concat (tokens : List Token) (token : Token) :
    unclosed (tokens ++ [token]) = openedAfter (unclosed tokens) tokens.length token := by
  simp only [unclosed, unclosedFrom_append, unclosedFrom, Nat.zero_add]

theorem unclosedFrom_digits (opened : List Nat) (position : Nat) (digits : List UInt8) :
    unclosedFrom opened position (digits.map .digit) = opened := by
  induction digits generalizing position with
  | nil => rfl
  | cons digit rest ih => exact ih (position + 1)

/-- The most parentheses that are open at once, those of `opened` included. -/
def mostOpenFrom (opened : List Nat) (position : Nat) : List Token → Nat
  | [] => opened.length
  | token :: rest =>
    max opened.length (mostOpenFrom (openedAfter opened position token) (position + 1) rest)

def mostOpen (tokens : List Token) : Nat :=
  mostOpenFrom [] 0 tokens

theorem le_mostOpenFrom (opened : List Nat) (position : Nat) (tokens : List Token) :
    opened.length ≤ mostOpenFrom opened position tokens := by
  cases tokens with
  | nil => exact Nat.le_refl _
  | cons token rest => exact Nat.le_max_left _ _

theorem mostOpenFrom_append (opened : List Nat) (position : Nat) (first second : List Token) :
    mostOpenFrom opened position (first ++ second) =
      max (mostOpenFrom opened position first)
        (mostOpenFrom (unclosedFrom opened position first) (position + first.length) second) := by
  induction first generalizing opened position with
  | nil => exact (Nat.max_eq_right (le_mostOpenFrom opened position second)).symm
  | cons token rest ih =>
      simp only [List.cons_append, mostOpenFrom, ih, unclosedFrom, List.length_cons, Nat.max_assoc]
      rw [Nat.add_right_comm, Nat.add_assoc]

theorem mostOpenFrom_digits (opened : List Nat) (position : Nat) (digits : List UInt8) :
    mostOpenFrom opened position (digits.map .digit) = opened.length := by
  induction digits generalizing position with
  | nil => rfl
  | cons digit rest ih =>
      simp only [List.map_cons, mostOpenFrom, openedAfter, ih, Nat.max_self]

theorem mostOpenFrom_le_iff (opened : List Nat) (position : Nat) (tokens : List Token)
    (bound : Nat) :
    mostOpenFrom opened position tokens ≤ bound ↔
      ∀ i, (unclosedFrom opened position (tokens.take i)).length ≤ bound := by
  induction tokens generalizing opened position with
  | nil => simp only [mostOpenFrom, List.take_nil, unclosedFrom, forall_const]
  | cons token rest ih =>
      simp only [mostOpenFrom, Nat.max_le, ih]
      constructor
      · intro bounds i
        cases i with
        | zero => exact bounds.1
        | succ i => exact bounds.2 i
      · intro bounds
        exact ⟨bounds 0, fun i => bounds (i + 1)⟩

theorem mostOpen_le_iff (tokens : List Token) (bound : Nat) :
    mostOpen tokens ≤ bound ↔ ∀ i, (unclosed (tokens.take i)).length ≤ bound :=
  mostOpenFrom_le_iff [] 0 tokens bound

def AwaitsOperand (tokens : List Token) : Prop :=
  tokens = [] ∨ tokens.getLast? = some .openParen ∨
    ∃ op, tokens.getLast? = some (.operator op)

instance (tokens : List Token) : Decidable (AwaitsOperand tokens) :=
  match last : tokens.getLast? with
  | none => isTrue (.inl (List.getLast?_eq_none_iff.mp last))
  | some .openParen => isTrue (.inr (.inl last))
  | some (.operator op) => isTrue (.inr (.inr ⟨op, last⟩))
  | some .closeParen | some (.digit _) => isFalse (by
      rintro (rfl | same | ⟨op, same⟩)
      · cases last
      · rw [last] at same
        cases same
      · rw [last] at same
        cases same)

def NoDigitAhead (rest : List Token) : Prop :=
  ∀ digit, rest.head? ≠ some (.digit digit)

def withDigits (value : Nat) (digits : List UInt8) : Nat :=
  digits.foldl (fun value digit => value * 10 + digit.toNat) value

def digitsValue (digits : List UInt8) : Nat :=
  withDigits 0 digits

/-- The digits stand at `start`, and no digit stands right before or right after them. -/
structure DigitRun (tokens : List Token) (start : Nat) (digits : List UInt8) : Prop where
  nonempty : digits ≠ []
  inside : ∀ i digit, digits[i]? = some digit → tokens[start + i]? = some (.digit digit)
  before : ∀ i digit, start = i + 1 → tokens[i]? ≠ some (.digit digit)
  after : ∀ digit, tokens[start + digits.length]? ≠ some (.digit digit)

/-- With the digit at index `i` the value of the run first exceeds the largest literal. -/
structure GrowsTooLargeAt (digits : List UInt8) (i : Nat) : Prop where
  bound : i < digits.length
  before : digitsValue (digits.take i) ≤ largestLiteral
  after : largestLiteral < digitsValue (digits.take (i + 1))

theorem withDigits_append (value : Nat) (first second : List UInt8) :
    withDigits value (first ++ second) = withDigits (withDigits value first) second :=
  List.foldl_append

theorem le_withDigits (value : Nat) (digits : List UInt8) : value ≤ withDigits value digits := by
  induction digits generalizing value with
  | nil => exact Nat.le_refl value
  | cons digit rest ih =>
      have step := ih (value * 10 + digit.toNat)
      simp only [withDigits, List.foldl_cons] at step ⊢
      omega

theorem digitsValue_take_le (digits : List UInt8) {i j : Nat} (le : i ≤ j) :
    digitsValue (digits.take i) ≤ digitsValue (digits.take j) := by
  have split : digits.take j = digits.take i ++ (digits.drop i).take (j - i) := by
    rw [← List.take_add, Nat.add_sub_cancel' le]
  rw [split, digitsValue, digitsValue, withDigits_append]
  exact le_withDigits _ _

theorem GrowsTooLargeAt.unique {digits : List UInt8} {i j : Nat}
    (first : GrowsTooLargeAt digits i) (second : GrowsTooLargeAt digits j) : i = j := by
  rcases Nat.lt_trichotomy i j with less | same | greater
  · have le := digitsValue_take_le digits (show i + 1 ≤ j from less)
    have large := first.after
    have small := second.before
    omega
  · exact same
  · have le := digitsValue_take_le digits (show j + 1 ≤ i from greater)
    have large := second.after
    have small := first.before
    omega

theorem GrowsTooLargeAt.too_large {digits : List UInt8} {i : Nat}
    (grows : GrowsTooLargeAt digits i) : largestLiteral < digitsValue digits := by
  have le := digitsValue_take_le digits (show i + 1 ≤ digits.length from grows.bound)
  have large := grows.after
  rw [List.take_length] at le
  omega

namespace DigitRun

variable {tokens : List Token} {start : Nat} {digits : List UInt8}

theorem length_pos (run : DigitRun tokens start digits) : 0 < digits.length :=
  List.length_pos_iff.mpr run.nonempty

theorem at_index (run : DigitRun tokens start digits) {i : Nat} (bound : i < digits.length) :
    tokens[start + i]? = some (.digit digits[i]) :=
  run.inside i digits[i] (List.getElem?_eq_getElem bound)

theorem stop_le (run : DigitRun tokens start digits) : start + digits.length ≤ tokens.length := by
  have pos := run.length_pos
  have last := run.at_index (show digits.length - 1 < digits.length by omega)
  have bound := (List.getElem?_eq_some_iff.mp last).1
  omega

theorem lt_of_start_lt {other : Nat} {others : List UInt8} (run : DigitRun tokens start digits)
    (otherRun : DigitRun tokens other others) (less : start < other) :
    start + digits.length < other := by
  apply Nat.lt_of_not_le
  intro touches
  obtain ⟨offset, rfl⟩ := Nat.exists_eq_add_of_lt less
  have inside := run.at_index (show offset < digits.length by omega)
  exact otherRun.before (start + offset) _ rfl inside

end DigitRun

section
variable {first second : List Token} {token : Token} {start : Nat} {digits : List UInt8}

theorem look_left {i : Nat} (bound : i < first.length) :
    (first ++ token :: second)[i]? = first[i]? :=
  List.getElem?_append_left bound

theorem look_middle : (first ++ token :: second)[first.length]? = some token := by
  rw [List.getElem?_append_right (Nat.le_refl _), Nat.sub_self, List.getElem?_cons_zero]

theorem look_right (i : Nat) :
    (first ++ token :: second)[first.length + 1 + i]? = second[i]? := by
  rw [List.getElem?_append_right (by omega),
    show first.length + 1 + i - first.length = i + 1 by omega, List.getElem?_cons_succ]

theorem look_iff {sought : Token} {i : Nat} :
    (first ++ token :: second)[i]? = some sought ↔
      first[i]? = some sought ∨ (i = first.length ∧ token = sought) ∨
        ∃ offset, i = first.length + 1 + offset ∧ second[offset]? = some sought := by
  rcases Nat.lt_trichotomy i first.length with less | rfl | greater
  · rw [look_left less]
    have before : ¬ ∃ offset, i = first.length + 1 + offset ∧ second[offset]? = some sought := by
      rintro ⟨offset, same, -⟩
      omega
    simp only [Nat.ne_of_lt less, false_and, before, or_false]
  · have outside : first[first.length]? = none := List.getElem?_eq_none (Nat.le_refl _)
    have behind : ∀ offset, first.length ≠ first.length + 1 + offset := by omega
    simp only [look_middle, outside, behind, Option.some.injEq, reduceCtorEq, false_and,
      exists_false, or_false, false_or, true_and]
  · obtain ⟨offset, rfl⟩ := Nat.exists_eq_add_of_lt greater
    rw [Nat.add_right_comm, look_right]
    have outside : first[first.length + 1 + offset]? = none :=
      List.getElem?_eq_none (by omega)
    constructor
    · intro found
      exact .inr (.inr ⟨offset, rfl, found⟩)
    · intro inPart
      rcases inPart with found | ⟨same, -⟩ | ⟨other, same, found⟩
      · rw [outside] at found
        cases found
      · omega
      · obtain rfl : other = offset := by omega
        exact found

theorem look_group {inner : List Token} {sought : Token} {i : Nat} :
    (Token.openParen :: (inner ++ [.closeParen]))[i]? = some sought ↔
      (i = 0 ∧ .openParen = sought) ∨ (∃ offset, i = offset + 1 ∧ inner[offset]? = some sought) ∨
        (i = inner.length + 1 ∧ .closeParen = sought) := by
  rw [← List.nil_append (Token.openParen :: _), look_iff]
  simp only [look_iff, List.getElem?_nil, List.length_nil, reduceCtorEq, false_or, and_false,
    exists_false, or_false, Nat.zero_add, Nat.add_comm 1]
  constructor
  · intro inPart
    rcases inPart with here | ⟨offset, rfl, found | ⟨rfl, same⟩⟩
    · exact .inl here
    · exact .inr (.inl ⟨offset, rfl, found⟩)
    · exact .inr (.inr ⟨rfl, same⟩)
  · intro inPart
    rcases inPart with here | ⟨offset, rfl, found⟩ | ⟨rfl, same⟩
    · exact .inl here
    · exact .inr ⟨offset, rfl, .inl found⟩
    · exact .inr ⟨inner.length, rfl, .inr ⟨rfl, same⟩⟩

theorem take_right (i : Nat) :
    (first ++ token :: second).take (first.length + 1 + i) = first ++ token :: second.take i := by
  rw [List.take_append, List.take_of_length_le (by omega),
    show first.length + 1 + i - first.length = i + 1 by omega, List.take_succ_cons]

theorem DigitRun.ofLeft (other : ∀ digit, token ≠ .digit digit)
    (run : DigitRun first start digits) : DigitRun (first ++ token :: second) start digits := by
  have pos := run.length_pos
  have stop := run.stop_le
  refine ⟨run.nonempty, ?_, ?_, ?_⟩
  · intro i digit found
    have bound := (List.getElem?_eq_some_iff.mp found).1
    rw [look_left (by omega)]
    exact run.inside i digit found
  · intro i digit next
    rw [look_left (by omega)]
    exact run.before i digit next
  · intro digit
    rcases Nat.lt_or_eq_of_le stop with inside | last
    · rw [look_left inside]
      exact run.after digit
    · rw [last, look_middle]
      exact fun same => other digit (Option.some.inj same)

theorem DigitRun.ofRight (other : ∀ digit, token ≠ .digit digit)
    (run : DigitRun second start digits) :
    DigitRun (first ++ token :: second) (first.length + 1 + start) digits := by
  refine ⟨run.nonempty, ?_, ?_, ?_⟩
  · intro i digit found
    rw [Nat.add_assoc, look_right]
    exact run.inside i digit found
  · intro i digit next
    cases start with
    | zero =>
        obtain rfl : i = first.length := by omega
        rw [look_middle]
        exact fun same => other digit (Option.some.inj same)
    | succ start =>
        obtain rfl : i = first.length + 1 + start := by omega
        rw [look_right]
        exact run.before start digit rfl
  · intro digit
    rw [Nat.add_assoc, look_right]
    exact run.after digit

/-- Runs do not reach across a token that is no digit. -/
theorem digitRun_append_cons (other : ∀ digit, token ≠ .digit digit) :
    DigitRun (first ++ token :: second) start digits ↔
      DigitRun first start digits ∨
        ∃ offset, start = first.length + 1 + offset ∧ DigitRun second offset digits := by
  constructor
  · intro run
    have pos := run.length_pos
    by_cases left : start + digits.length ≤ first.length
    · refine .inl ⟨run.nonempty, ?_, ?_, ?_⟩
      · intro i digit found
        have bound := (List.getElem?_eq_some_iff.mp found).1
        rw [← look_left (by omega)]
        exact run.inside i digit found
      · intro i digit next
        rw [← look_left (by omega)]
        exact run.before i digit next
      · intro digit
        rcases Nat.lt_or_eq_of_le left with inside | last
        · rw [← look_left inside]
          exact run.after digit
        · simp [last]
    · by_cases right : first.length < start
      · obtain ⟨offset, rfl⟩ := Nat.exists_eq_add_of_lt right
        rw [Nat.add_right_comm] at run
        refine .inr ⟨offset, by omega, run.nonempty, ?_, ?_, ?_⟩
        · intro i digit found
          rw [← look_right, ← Nat.add_assoc]
          exact run.inside i digit found
        · intro i digit next
          rw [← look_right]
          exact run.before _ digit (by omega)
        · intro digit
          rw [← look_right, ← Nat.add_assoc]
          exact run.after digit
      -- The run would have to hold the token in between.
      · have inside := run.at_index (show first.length - start < digits.length by omega)
        rw [show start + (first.length - start) = first.length by omega, look_middle] at inside
        exact absurd (Option.some.inj inside) (other _)
  · intro inPart
    rcases inPart with run | ⟨offset, rfl, run⟩
    · exact run.ofLeft other
    · exact run.ofRight other

theorem not_digitRun_nil : ¬ DigitRun [] start digits := by
  intro run
  have pos := run.length_pos
  have stop := run.stop_le
  rw [List.length_nil] at stop
  omega

theorem digitRun_group {inner : List Token} :
    DigitRun (.openParen :: (inner ++ [.closeParen])) start digits ↔
      ∃ offset, start = offset + 1 ∧ DigitRun inner offset digits := by
  have opening : ∀ digit, Token.openParen ≠ .digit digit := by simp
  have closing : ∀ digit, Token.closeParen ≠ .digit digit := by simp
  rw [← List.nil_append (Token.openParen :: _), digitRun_append_cons opening]
  simp only [digitRun_append_cons closing, not_digitRun_nil, false_or, and_false, exists_false,
    or_false, List.length_nil, Nat.zero_add, Nat.add_comm 1]

end

theorem digitRun_map {digits : List UInt8} (nonempty : digits ≠ []) (start : Nat)
    (run : List UInt8) :
    DigitRun (digits.map .digit) start run ↔ start = 0 ∧ run = digits := by
  constructor
  · intro isRun
    have pos := isRun.length_pos
    have stop := isRun.stop_le
    rw [List.length_map] at stop
    have look : ∀ (i : Nat) (digit : UInt8), digits[i]? = some digit →
        (digits.map Token.digit)[i]? = some (.digit digit) := by
      intro i digit found
      rw [List.getElem?_map, found, Option.map_some]
    have first : start = 0 := by
      cases start with
      | zero => rfl
      | succ start =>
          have bound : start < digits.length := by omega
          exact absurd (look start _ (List.getElem?_eq_getElem bound)) (isRun.before start _ rfl)
    subst first
    have last : run.length = digits.length := by
      apply Nat.le_antisymm (by omega)
      apply Nat.le_of_not_lt
      intro bound
      have none := isRun.after digits[run.length]
      rw [Nat.zero_add] at none
      exact none (look run.length _ (List.getElem?_eq_getElem bound))
    refine ⟨rfl, List.ext_getElem last ?_⟩
    intro i inRun inDigits
    have found := isRun.at_index inRun
    rw [Nat.zero_add, look i _ (List.getElem?_eq_getElem inDigits)] at found
    exact Token.digit.inj (Option.some.inj found).symm
  · intro same
    obtain ⟨rfl, rfl⟩ := same
    refine ⟨nonempty, ?_, ?_, ?_⟩
    · intro i digit found
      simp [found]
    · intro i digit next
      cases next
    · simp

end Arith
