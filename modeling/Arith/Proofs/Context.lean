import Arith.Proofs.Relocation

/-! Phrases with a factor left out.

Whatever factor is put in, the tokens around it are the same, and so are the faults of what
is read before it. What is found behind it are operations that the factor makes too deep.
-/

set_option autoImplicit false

namespace Arith

/-- A phrase of the category in which one factor is missing. -/
inductive Context : Category → Type where
  | hole : Context .factor
  | group (inner : Context .expression) : Context .factor
  | operand {tight : Bool} (only : Context (.operand tight)) : Context (.chain tight)
  | inLeft {tight : Bool} (left : Context (.chain tight)) (op : Operator)
      (accepted : op.isMultiplicative = tight) (right : Phrase (.operand tight)) :
      Context (.chain tight)
  | inRight {tight : Bool} (left : Phrase (.chain tight)) (op : Operator)
      (accepted : op.isMultiplicative = tight) (right : Context (.operand tight)) :
      Context (.chain tight)

namespace Context

def fill : {category : Category} → Context category → Phrase .factor → Phrase category
  | _, .hole, factor => factor
  | _, .group inner, factor => .group (inner.fill factor)
  | _, .operand only, factor => .operand (only.fill factor)
  | _, .inLeft left op accepted right, factor => .joined (left.fill factor) op accepted right
  | _, .inRight left op accepted right, factor => .joined left op accepted (right.fill factor)

def before : {category : Category} → Context category → List Token
  | _, .hole => []
  | _, .group inner => .openParen :: inner.before
  | _, .operand only => only.before
  | _, .inLeft left _ _ _ => left.before
  | _, .inRight left op _ right => left.tokens ++ .operator op :: right.before

def after : {category : Category} → Context category → List Token
  | _, .hole => []
  | _, .group inner => inner.after ++ [.closeParen]
  | _, .operand only => only.after
  | _, .inLeft left op _ right => left.after ++ .operator op :: right.tokens
  | _, .inRight _ _ _ right => right.after

def depth : {category : Category} → Context category → Nat
  | _, .hole => 0
  | _, .group inner => inner.depth + 1
  | _, .operand only => only.depth
  | _, .inLeft left _ _ _ => left.depth
  | _, .inRight _ _ _ right => right.depth

variable {category : Category}

theorem tokens_fill (context : Context category) (factor : Phrase .factor) :
    (context.fill factor).tokens = context.before ++ (factor.tokens ++ context.after) := by
  induction context with
  | hole => exact (List.append_nil _).symm
  | group inner ih =>
      simp only [fill, before, after, Phrase.tokens, ih, List.append_assoc, List.cons_append]
  | operand only ih => exact ih
  | inLeft left op accepted right ih =>
      simp only [fill, before, after, Phrase.tokens, ih, List.append_assoc]
  | inRight left op accepted right ih =>
      simp only [fill, before, after, Phrase.tokens, ih, List.append_assoc, List.cons_append]

theorem length_fill (context : Context category) (factor : Phrase .factor) :
    (context.fill factor).tokens.length =
      context.before.length + factor.tokens.length + context.after.length := by
  rw [tokens_fill, List.length_append, List.length_append, Nat.add_assoc]

/-- Of what is before the missing factor, the parentheses around it are open there. -/
theorem length_unclosedFrom_before (context : Context category) (opened : List Nat) (base : Nat) :
    (unclosedFrom opened base context.before).length = opened.length + context.depth := by
  induction context generalizing opened base with
  | hole => rfl
  | group inner ih =>
      rw [before, unclosedFrom, ih, openedAfter, List.length_cons, depth]
      omega
  | operand only ih => exact ih opened base
  | inLeft left op accepted right ih => exact ih opened base
  | inRight left op accepted right ih =>
      simp only [before, unclosedFrom_append, left.unclosedFrom_tokens, unclosedFrom, openedAfter,
        ih, depth]

theorem depth_le_nesting (context : Context category) (factor : Phrase .factor) :
    context.depth ≤ (context.fill factor).nesting := by
  induction context with
  | hole => exact Nat.zero_le _
  | group inner ih => exact Nat.succ_le_succ ih
  | operand only ih => exact ih
  | inLeft left op accepted right ih => exact Nat.le_trans ih (Nat.le_max_left _ _)
  | inRight left op accepted right ih => exact Nat.le_trans ih (Nat.le_max_right _ _)

/-- Every run of digits of a phrase is a factor of it. -/
theorem exists_of_digitRun (phrase : Phrase category) {start : Nat} {digits : List UInt8}
    (run : DigitRun phrase.tokens start digits) :
    ∃ (context : Context category) (nonempty : digits ≠ []),
      context.before.length = start ∧ context.fill (.literal digits nonempty) = phrase := by
  induction phrase generalizing start with
  | literal others nonempty =>
      obtain ⟨rfl, rfl⟩ := (digitRun_map nonempty start digits).mp run
      exact ⟨.hole, nonempty, rfl, rfl⟩
  | group inner ih =>
      obtain ⟨offset, rfl, inside⟩ := digitRun_group.mp run
      obtain ⟨context, nonempty, rfl, rfl⟩ := ih inside
      exact ⟨.group context, nonempty, rfl, rfl⟩
  | operand only ih =>
      obtain ⟨context, nonempty, rfl, rfl⟩ := ih run
      exact ⟨.operand context, nonempty, rfl, rfl⟩
  | joined left op accepted right ihl ihr =>
      have apart : ∀ digit, Token.operator op ≠ .digit digit := by simp
      rcases (digitRun_append_cons apart).mp run with inLeft | ⟨offset, rfl, inRight⟩
      · obtain ⟨context, nonempty, rfl, rfl⟩ := ihl inLeft
        exact ⟨.inLeft context op accepted right, nonempty, rfl, rfl⟩
      · obtain ⟨context, nonempty, rfl, rfl⟩ := ihr inRight
        refine ⟨.inRight left op accepted context, nonempty, ?_, rfl⟩
        rw [before, List.length_append, List.length_cons]
        omega

/-- The error for an operation around the missing factor, which this one makes too deep. -/
structure Exceeds (context : Context category) (factor : Phrase .factor) (base : Nat)
    (cause : ParseError) : Prop where
  named : ∃ position, cause = .expressionTooDeep position ∧
    (position < base + context.before.length ∨
      base + context.before.length + factor.tokens.length ≤ position)
  deep : maxTreeDepth < ((context.fill factor).tree base).height

namespace Exceeds

variable {factor : Phrase .factor} {base : Nat} {cause : ParseError}

theorem group {inner : Context .expression} (exceeds : inner.Exceeds factor (base + 1) cause) :
    (Context.group inner).Exceeds factor base cause := by
  obtain ⟨⟨position, same, outside⟩, deep⟩ := exceeds
  refine ⟨⟨position, same, ?_⟩, deep⟩
  rw [before, List.length_cons]
  omega

theorem operand {tight : Bool} {only : Context (.operand tight)}
    (exceeds : only.Exceeds factor base cause) :
    (Context.operand only : Context (.chain tight)).Exceeds factor base cause :=
  ⟨exceeds.named, exceeds.deep⟩

section
variable {tight : Bool} (op : Operator) (accepted : op.isMultiplicative = tight)

theorem inLeft {left : Context (.chain tight)} (exceeds : left.Exceeds factor base cause)
    (right : Phrase (.operand tight)) :
    (Context.inLeft left op accepted right).Exceeds factor base cause := by
  refine ⟨exceeds.named, ?_⟩
  have deep := exceeds.deep
  simp only [fill, Phrase.tree, Tree.height]
  omega

theorem inRight {right : Context (.operand tight)} (left : Phrase (.chain tight))
    (exceeds : right.Exceeds factor (base + left.tokens.length + 1) cause) :
    (Context.inRight left op accepted right).Exceeds factor base cause := by
  obtain ⟨⟨position, same, outside⟩, deep⟩ := exceeds
  refine ⟨⟨position, same, ?_⟩, ?_⟩
  · rw [before, List.length_append, List.length_cons]
    omega
  · simp only [fill, Phrase.tree, Tree.height]
    omega

end

end Exceeds

/-- Where some factor leaves the phrase without faults, another one brings its own faults
with it, and behind them nothing but operations that are too deep with it. -/
theorem faults_fill {context : Context category} {old : Phrase .factor} {nesting base : Nat}
    (faultless : (context.fill old).faults nesting base = []) (limit : nesting ≤ maxNesting)
    (factor : Phrase .factor) :
    ∃ later, (context.fill factor).faults nesting base =
        factor.faults (nesting + context.depth) (base + context.before.length) ++ later ∧
      ∀ fault ∈ later, context.Exceeds factor base fault.cause := by
  induction context generalizing nesting base with
  | hole => exact ⟨[], (List.append_nil _).symm, by simp⟩
  | group inner ih =>
      obtain ⟨room, inside⟩ := (Phrase.faults_group_eq_nil_iff _ _ _).mp faultless
      obtain ⟨later, split, exceeding⟩ := ih inside (by omega)
      refine ⟨later, ?_, fun fault member => (exceeding fault member).group⟩
      rw [fill, Phrase.faults, if_neg room, List.nil_append, split, depth, before,
        List.length_cons, Nat.add_right_comm nesting, Nat.add_assoc nesting,
        Nat.add_right_comm base, Nat.add_assoc base]
  | operand only ih =>
      obtain ⟨later, split, exceeding⟩ := ih faultless limit
      exact ⟨later, split, fun fault member => (exceeding fault member).operand⟩
  | inLeft left op accepted right ih =>
      obtain ⟨inLeft, inRight, -⟩ := (Phrase.faults_joined_eq_nil_iff _ _ _ _ _ _).mp faultless
      obtain ⟨later, split, exceeding⟩ := ih inLeft limit
      rw [fill, Phrase.faults, split, Phrase.faults_relocated inRight limit, List.append_nil,
        List.append_assoc]
      refine ⟨_, rfl, ?_⟩
      intro fault member
      rcases List.mem_append.mp member with inside | self
      · exact (exceeding fault inside).inLeft op accepted right
      · split at self
        · cases self
        · rename_i deep
          cases List.mem_singleton.mp self
          -- The operator stands behind the factor.
          refine ⟨⟨_, rfl, .inr ?_⟩, Nat.lt_of_not_le deep⟩
          rw [length_fill, before]
          omega
  | inRight left op accepted right ih =>
      obtain ⟨inLeft, inRight, -⟩ := (Phrase.faults_joined_eq_nil_iff _ _ _ _ _ _).mp faultless
      obtain ⟨later, split, exceeding⟩ := ih inRight limit
      rw [fill, Phrase.faults, split, inLeft, List.nil_append, List.append_assoc, depth, before,
        List.length_append, List.length_cons]
      have place : base + left.tokens.length + 1 + right.before.length =
          base + (left.tokens.length + (right.before.length + 1)) := by omega
      rw [place]
      refine ⟨_, rfl, ?_⟩
      intro fault member
      rcases List.mem_append.mp member with inside | self
      · exact (exceeding fault inside).inRight op accepted left
      · split at self
        · cases self
        · rename_i deep
          cases List.mem_singleton.mp self
          -- The operator stands before the factor.
          refine ⟨⟨_, rfl, .inl ?_⟩, Nat.lt_of_not_le deep⟩
          rw [before, List.length_append, List.length_cons]
          omega

end Context

end Arith
