import Arith.Proofs.Faults
import Arith.Proofs.Nesting

/-! What the faults of a phrase say about the sequence and about the tree.

A fault of a literal is a run of digits with too large a value, a fault of a parenthesis
is one that opens while as many as may be are open, and the first fault of an operation
is the first node of the tree that is too deep.
-/

set_option autoImplicit false

namespace Arith

def TooLargeAt (tokens : List Token) (start : Nat) : Prop :=
  ∃ digits, DigitRun tokens start digits ∧ largestLiteral < digitsValue digits

def OpensTooDeepAt (tokens : List Token) (position : Nat) : Prop :=
  tokens[position]? = some .openParen ∧ (unclosed (tokens.take position)).length = maxNesting

namespace Phrase

variable {category : Category}

theorem mem_faults_literal (phrase : Phrase category) (nesting base start point : Nat) :
    ⟨.literalTooLarge start, point⟩ ∈ phrase.faults nesting base ↔
      ∃ offset digits i, start = base + offset ∧ DigitRun phrase.tokens offset digits ∧
        GrowsTooLargeAt digits i ∧ point = start + i := by
  induction phrase generalizing nesting base with
  | literal digits nonempty =>
      simp only [faults, tokens, digitRun_map nonempty]
      cases found : overrun? 0 base digits with
      | none =>
          have small := (overrun?_eq_none_iff base digits).mp found
          simp only [List.not_mem_nil, false_iff]
          intro inRun
          obtain ⟨_, _, i, _, ⟨_, rfl⟩, grows, _⟩ := inRun
          exact absurd grows.too_large (Nat.not_lt.mpr small)
      | some actual =>
          obtain ⟨i, rfl, grows⟩ := (overrun?_eq_some_iff base digits actual).mp found
          simp only [List.mem_singleton, Fault.mk.injEq, ParseError.literalTooLarge.injEq]
          constructor
          · intro same
            obtain ⟨rfl, rfl⟩ := same
            exact ⟨0, digits, i, rfl, ⟨rfl, rfl⟩, grows, rfl⟩
          · intro inRun
            obtain ⟨_, _, j, rfl, ⟨rfl, rfl⟩, other, rfl⟩ := inRun
            rw [grows.unique other]
            exact ⟨rfl, rfl⟩
  | group inner ih =>
      simp only [faults, tokens, List.mem_append, ih, digitRun_group]
      constructor
      · intro inPart
        rcases inPart with self | ⟨offset, digits, i, rfl, run, grows, rfl⟩
        · split at self <;> simp at self
        · exact ⟨offset + 1, digits, i, by omega, ⟨offset, rfl, run⟩, grows, rfl⟩
      · intro inRun
        obtain ⟨_, digits, i, rfl, ⟨offset, rfl, run⟩, grows, rfl⟩ := inRun
        exact .inr ⟨offset, digits, i, by omega, run, grows, rfl⟩
  | operand only ih => exact ih nesting base
  | joined left op accepted right ihl ihr =>
      have apart : ∀ digit, Token.operator op ≠ .digit digit := by simp
      simp only [faults, tokens, List.mem_append, ihl, ihr, digitRun_append_cons apart]
      constructor
      · intro inPart
        rcases inPart with (⟨offset, digits, i, rfl, run, grows, rfl⟩ |
          ⟨offset, digits, i, rfl, run, grows, rfl⟩) | self
        · exact ⟨offset, digits, i, rfl, .inl run, grows, rfl⟩
        · exact ⟨left.tokens.length + 1 + offset, digits, i, by omega, .inr ⟨offset, rfl, run⟩,
            grows, rfl⟩
        · split at self <;> simp at self
      · intro inRun
        rcases inRun with ⟨offset, digits, i, rfl, run | ⟨inRight, rfl, run⟩, grows, rfl⟩
        · exact .inl (.inl ⟨offset, digits, i, rfl, run, grows, rfl⟩)
        · exact .inl (.inr ⟨inRight, digits, i, by omega, run, grows, rfl⟩)

theorem mem_faults_nesting (phrase : Phrase category) (opened : List Nat)
    (base position point : Nat) :
    ⟨.nestingTooDeep position, point⟩ ∈ phrase.faults opened.length base ↔
      point = position ∧ ∃ offset, position = base + offset ∧
        StandsAt opened base phrase.tokens .openParen maxNesting offset := by
  induction phrase generalizing opened base with
  | literal digits nonempty =>
      have absent : ∀ i : Nat, (digits.map Token.digit)[i]? ≠ some Token.openParen := by simp
      simp only [faults, tokens, standsAt_digits, absent, false_and, and_false, exists_false,
        iff_false]
      split <;> simp
  | group inner ih =>
      have inside := ih (base :: opened) (base + 1)
      rw [List.length_cons] at inside
      simp only [faults, tokens, List.mem_append, inside, standsAt_group inner.unclosedFrom_tokens,
        reduceCtorEq, true_and, false_and, and_false, or_false]
      constructor
      · intro inPart
        rcases inPart with self | ⟨rfl, offset, rfl, here⟩
        · split at self
          · rename_i deep
            simp only [List.mem_singleton, Fault.mk.injEq, ParseError.nestingTooDeep.injEq] at self
            obtain ⟨rfl, rfl⟩ := self
            exact ⟨rfl, 0, rfl, .inl ⟨rfl, deep⟩⟩
          · cases self
        · exact ⟨rfl, offset + 1, by omega, .inr ⟨offset, rfl, here⟩⟩
      · intro stands
        rcases stands with ⟨rfl, offset, rfl, ⟨rfl, deep⟩ | ⟨inInner, rfl, here⟩⟩
        · rw [if_pos deep]
          exact .inl (List.mem_singleton.mpr rfl)
        · exact .inr ⟨rfl, inInner, by omega, here⟩
  | operand only ih => exact ih opened base
  | joined left op accepted right ihl ihr =>
      simp only [faults, tokens, List.mem_append, ihl, ihr,
        standsAt_joined left.unclosedFrom_tokens, reduceCtorEq, false_and, and_false, false_or]
      constructor
      · intro inPart
        rcases inPart with (⟨rfl, offset, rfl, here⟩ | ⟨rfl, offset, rfl, here⟩) | self
        · exact ⟨rfl, offset, rfl, .inl here⟩
        · exact ⟨rfl, left.tokens.length + 1 + offset, by omega, .inr ⟨offset, rfl, here⟩⟩
        · split at self <;> simp at self
      · intro stands
        rcases stands with ⟨rfl, offset, rfl, here | ⟨inRight, rfl, here⟩⟩
        · exact .inl (.inl ⟨rfl, offset, rfl, here⟩)
        · exact .inl (.inr ⟨rfl, inRight, by omega, here⟩)

theorem find?_faults_depth (phrase : Phrase category) (nesting base : Nat) :
    (phrase.faults nesting base).find? Fault.isDepth =
      ((phrase.nodes base).find? fun node => node.1.isTooDeep).map
        fun node => ⟨.expressionTooDeep node.1.position, node.2⟩ := by
  induction phrase generalizing nesting base with
  | literal digits nonempty =>
      simp only [faults, nodes, tree]
      split <;> simp [Fault.isDepth, Tree.isTooDeep, maxTreeDepth, Tree.height]
  | group inner ih =>
      simp only [faults, nodes, List.find?_append, ih]
      split <;> simp [Fault.isDepth]
  | operand only ih => exact ih nesting base
  | joined left op accepted right ihl ihr =>
      simp only [faults, nodes, List.find?_append, ihl, ihr, Option.map_or]
      split
      · rename_i shallow
        have own : ((left.joined op accepted right).tree base).isTooDeep = false :=
          decide_eq_false (Nat.not_lt.mpr shallow)
        simp only [List.find?_cons, own, List.find?_nil, Option.map_none]
      · rename_i deep
        have own : ((left.joined op accepted right).tree base).isTooDeep = true :=
          decide_eq_true (Nat.lt_of_not_le deep)
        have place : ((left.joined op accepted right).tree base).position =
            base + left.tokens.length := rfl
        simp only [List.find?_cons, own, Fault.isDepth, Option.map_some, place]

theorem operator_of_mem_faults {phrase : Phrase category} {nesting base position point : Nat}
    (member : ⟨.expressionTooDeep position, point⟩ ∈ phrase.faults nesting base) :
    ∃ offset op, position = base + offset ∧ phrase.tokens[offset]? = some (.operator op) := by
  induction phrase generalizing nesting base with
  | literal digits nonempty =>
      unfold faults at member
      split at member <;> simp at member
  | group inner ih =>
      rcases List.mem_append.mp member with self | inside
      · split at self <;> simp at self
      · obtain ⟨offset, op, rfl, found⟩ := ih inside
        refine ⟨offset + 1, op, by omega, ?_⟩
        exact look_group.mpr (.inr (.inl ⟨offset, rfl, found⟩))
  | operand only ih => exact ih member
  | joined left own accepted right ihl ihr =>
      simp only [faults, List.mem_append] at member
      rcases member with (inLeft | inRight) | self
      · obtain ⟨offset, op, rfl, found⟩ := ihl inLeft
        exact ⟨offset, op, rfl, look_iff.mpr (.inl found)⟩
      · obtain ⟨offset, op, rfl, found⟩ := ihr inRight
        refine ⟨left.tokens.length + 1 + offset, op, by omega, ?_⟩
        exact look_iff.mpr (.inr (.inr ⟨offset, rfl, found⟩))
      · split at self
        · cases self
        · cases List.mem_singleton.mp self
          exact ⟨left.tokens.length, own, rfl, look_middle⟩

theorem faults_cause {phrase : Phrase category} {nesting base : Nat} {fault : Fault}
    (member : fault ∈ phrase.faults nesting base) :
    (∃ start, fault.cause = .literalTooLarge start) ∨
      (∃ position, fault.cause = .nestingTooDeep position) ∨ fault.isDepth = true := by
  induction phrase generalizing nesting base with
  | literal digits nonempty =>
      simp only [faults] at member
      split at member
      · cases List.mem_singleton.mp member
        exact .inl ⟨base, rfl⟩
      · cases member
  | group inner ih =>
      rcases List.mem_append.mp member with self | inside
      · split at self
        · cases List.mem_singleton.mp self
          exact .inr (.inl ⟨base, rfl⟩)
        · cases self
      · exact ih inside
  | operand only ih => exact ih member
  | joined left op accepted right ihl ihr =>
      simp only [faults, List.mem_append] at member
      rcases member with (inLeft | inRight) | self
      · exact ihl inLeft
      · exact ihr inRight
      · split at self
        · cases self
        · cases List.mem_singleton.mp self
          exact .inr (.inr rfl)

theorem mem_faults_literal_iff (phrase : Phrase category) (start point : Nat) :
    ⟨.literalTooLarge start, point⟩ ∈ phrase.faults 0 0 ↔
      ∃ digits i, DigitRun phrase.tokens start digits ∧ GrowsTooLargeAt digits i ∧
        point = start + i := by
  rw [mem_faults_literal]
  constructor
  · intro inRun
    obtain ⟨offset, digits, i, rfl, run, grows, rfl⟩ := inRun
    rw [Nat.zero_add]
    exact ⟨digits, i, run, grows, rfl⟩
  · intro inRun
    obtain ⟨digits, i, run, grows, rfl⟩ := inRun
    exact ⟨start, digits, i, (Nat.zero_add start).symm, run, grows, rfl⟩

theorem mem_faults_nesting_iff (phrase : Phrase category) (position point : Nat) :
    ⟨.nestingTooDeep position, point⟩ ∈ phrase.faults 0 0 ↔
      point = position ∧ OpensTooDeepAt phrase.tokens position := by
  have general := phrase.mem_faults_nesting [] 0 position point
  simp only [List.length_nil, Nat.zero_add] at general
  rw [general]
  constructor
  · intro stands
    obtain ⟨same, offset, rfl, deep⟩ := stands
    exact ⟨same, deep⟩
  · intro deepAt
    obtain ⟨same, deep⟩ := deepAt
    exact ⟨same, position, rfl, deep⟩

end Phrase

end Arith
