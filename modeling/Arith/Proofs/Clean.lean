import Arith.Proofs.Faults.Meaning
import Arith.Proofs.Viable

/-! Prefixes that give no reason for an error.

Each token may follow those before it, no run of digits is too large, and no
parenthesis opens too far in. The lemmas say what may be appended.
-/

set_option autoImplicit false

namespace Arith

structure Clean (tokens : List Token) : Prop where
  coherent : Coherent tokens
  literals : ∀ start, ¬ TooLargeAt tokens start
  nesting : ∀ position, ¬ OpensTooDeepAt tokens position

theorem AwaitsOperand.cases {tokens : List Token} (awaits : AwaitsOperand tokens) :
    tokens = [] ∨ ∃ first token, tokens = first ++ [token] ∧ ∀ digit, token ≠ .digit digit := by
  cases tokens using List.reverseRecOn with
  | nil => exact .inl rfl
  | append_singleton first token =>
      refine .inr ⟨first, token, rfl, ?_⟩
      rcases (awaitsOperand_concat first token).mp awaits with rfl | ⟨op, rfl⟩
      · simp
      · simp

section
variable {tokens rest : List Token} {start : Nat} {run digits : List UInt8}

theorem digitRun_concat {token : Token} (other : ∀ digit, token ≠ .digit digit) :
    DigitRun (tokens ++ [token]) start run ↔ DigitRun tokens start run := by
  simp only [digitRun_append_cons other, not_digitRun_nil, and_false, exists_false, or_false]

/-- The runs of a sequence, seen from a place where an operand is due. -/
theorem digitRun_append (awaits : AwaitsOperand tokens) :
    DigitRun (tokens ++ rest) start run ↔
      DigitRun tokens start run ∨
        ∃ offset, start = tokens.length + offset ∧ DigitRun rest offset run := by
  rcases awaits.cases with rfl | ⟨first, token, rfl, other⟩
  · simp [not_digitRun_nil]
  · rw [List.append_assoc, List.singleton_append, digitRun_append_cons other,
      digitRun_concat other, List.length_append, List.length_singleton]

theorem digitRun_ahead (nonempty : digits ≠ []) (ends : NoDigitAhead rest) :
    DigitRun (digits.map .digit ++ rest) 0 digits := by
  have whole := (digitRun_map nonempty 0 digits).mpr ⟨rfl, rfl⟩
  cases rest with
  | nil => rwa [List.append_nil]
  | cons token rest =>
      apply whole.ofLeft
      rintro digit rfl
      exact ends digit rfl

theorem tooLargeAt_concat {token : Token} (other : ∀ digit, token ≠ .digit digit) :
    TooLargeAt (tokens ++ [token]) start ↔ TooLargeAt tokens start := by
  simp only [TooLargeAt, digitRun_concat other]

theorem tooLargeAt_append (awaits : AwaitsOperand tokens) :
    TooLargeAt (tokens ++ rest) start ↔
      TooLargeAt tokens start ∨
        ∃ offset, start = tokens.length + offset ∧ TooLargeAt rest offset := by
  simp only [TooLargeAt, digitRun_append awaits]
  constructor
  · intro tooLarge
    rcases tooLarge with ⟨digits, inFirst | ⟨offset, same, inRest⟩, large⟩
    · exact .inl ⟨digits, inFirst, large⟩
    · exact .inr ⟨offset, same, digits, inRest, large⟩
  · intro inPart
    rcases inPart with ⟨digits, inFirst, large⟩ | ⟨offset, same, digits, inRest, large⟩
    · exact ⟨digits, .inl inFirst, large⟩
    · exact ⟨digits, .inr ⟨offset, same, inRest⟩, large⟩

theorem opensTooDeepAt_append {position : Nat} (inside : position < tokens.length) :
    OpensTooDeepAt (tokens ++ rest) position ↔ OpensTooDeepAt tokens position := by
  rw [OpensTooDeepAt, OpensTooDeepAt, List.getElem?_append_left inside,
    List.take_append_of_le_length (Nat.le_of_lt inside)]

theorem OpensTooDeepAt.lt_length {position : Nat} (deep : OpensTooDeepAt tokens position) :
    position < tokens.length :=
  (List.getElem?_eq_some_iff.mp deep.1).1

theorem opensTooDeepAt_concat {token : Token} {position : Nat} :
    OpensTooDeepAt (tokens ++ [token]) position ↔
      OpensTooDeepAt tokens position ∨
        position = tokens.length ∧ token = .openParen ∧
          (unclosed tokens).length = maxNesting := by
  rcases Nat.lt_trichotomy position tokens.length with less | rfl | greater
  · rw [opensTooDeepAt_append less]
    simp only [Nat.ne_of_lt less, false_and, or_false]
  · have outside : ¬ OpensTooDeepAt tokens tokens.length :=
      fun deep => Nat.lt_irrefl _ deep.lt_length
    simp only [outside, false_or, true_and]
    simp only [OpensTooDeepAt, look_middle, List.take_left, Option.some.injEq]
  · constructor
    · intro deep
      have bound := deep.lt_length
      rw [List.length_append, List.length_singleton] at bound
      omega
    · intro inPart
      rcases inPart with deep | ⟨rfl, -⟩
      · have bound := deep.lt_length
        omega
      · omega

end

theorem opensTooDeepAt_digits {tokens : List Token} {digits : List UInt8} {position : Nat} :
    OpensTooDeepAt (tokens ++ digits.map .digit) position ↔ OpensTooDeepAt tokens position := by
  induction digits using List.reverseRecOn with
  | nil => rw [List.map_nil, List.append_nil]
  | append_singleton digits digit ih =>
      rw [List.map_append, ← List.append_assoc, List.map_singleton, opensTooDeepAt_concat, ih]
      simp only [reduceCtorEq, false_and, and_false, or_false]

namespace Clean

theorem nil : Clean [] := by
  refine ⟨coherent_nil, ?_, ?_⟩
  · intro start tooLarge
    obtain ⟨digits, run, -⟩ := tooLarge
    exact not_digitRun_nil run
  · intro position deep
    cases deep.1

variable {tokens : List Token}

theorem concat (clean : Clean tokens) {token : Token} (follows : MayFollow tokens token)
    (other : ∀ digit, token ≠ .digit digit)
    (room : token = .openParen → (unclosed tokens).length ≠ maxNesting) :
    Clean (tokens ++ [token]) := by
  refine ⟨(coherent_concat tokens token).mpr ⟨clean.coherent, follows⟩, ?_, ?_⟩
  · intro start
    rw [tooLargeAt_concat other]
    exact clean.literals start
  · intro position
    rw [opensTooDeepAt_concat]
    intro deep
    rcases deep with inside | ⟨-, opening, full⟩
    · exact clean.nesting position inside
    · exact room opening full

theorem digits (clean : Clean tokens) (awaits : AwaitsOperand tokens) {digits : List UInt8}
    (small : digitsValue digits ≤ largestLiteral) : Clean (tokens ++ digits.map .digit) := by
  refine ⟨clean.coherent.digits awaits digits, ?_, ?_⟩
  · intro start
    rw [tooLargeAt_append awaits]
    intro tooLarge
    rcases tooLarge with before | ⟨offset, -, run, isRun, large⟩
    · exact clean.literals start before
    -- The only run behind `tokens` is that of all the digits.
    · cases digits with
      | nil => exact not_digitRun_nil isRun
      | cons digit others =>
          obtain ⟨-, rfl⟩ := (digitRun_map (List.cons_ne_nil _ _) offset run).mp isRun
          exact absurd large (Nat.not_lt.mpr small)
  · intro position
    rw [opensTooDeepAt_digits]
    exact clean.nesting position

end Clean

end Arith
