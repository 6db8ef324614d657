import Arith.Parser.State
import Arith.Proofs.Grammar

/-! Where a phrase goes beyond a limit, in the order in which reading from the left
finds out.

A literal is found at the digit with which it grows too large, a parenthesis at itself,
and an operation right behind its right operand, when the tree of that is known. The
faults of a phrase are those of the sequence and of the tree, and they are in order.
-/

set_option autoImplicit false

namespace Arith

/-- The error that reports the fault, and the index at which it is found. -/
structure Fault where
  cause : ParseError
  point : Nat
  deriving DecidableEq, Repr

namespace Fault

def isDepth : Fault → Bool
  | ⟨.expressionTooDeep _, _⟩ => true
  | _ => false

/-- Several operations may end with the same operand, otherwise points differ. -/
def Precedes (first second : Fault) : Prop :=
  first.point < second.point ∨
    first.point = second.point ∧ first.isDepth = true ∧ second.isDepth = true

end Fault

def Tree.isTooDeep (tree : Tree) : Bool :=
  decide (maxTreeDepth < tree.height)

theorem Tree.isTooDeep_iff (tree : Tree) : tree.isTooDeep = true ↔ maxTreeDepth < tree.height :=
  decide_eq_true_iff

/-- The position of the digit with which a value grows too large, the digits standing
at `position`. -/
def overrun? (value position : Nat) : List UInt8 → Option Nat
  | [] => none
  | digit :: rest =>
    if value * 10 + digit.toNat ≤ largestLiteral then
      overrun? (value * 10 + digit.toNat) (position + 1) rest
    else some position

theorem overrun?_spec (value position : Nat) (digits : List UInt8) (fits : value ≤ largestLiteral) :
    match overrun? value position digits with
    | none => withDigits value digits ≤ largestLiteral
    | some point => ∃ i, i < digits.length ∧ point = position + i ∧
        withDigits value (digits.take i) ≤ largestLiteral ∧
        largestLiteral < withDigits value (digits.take (i + 1)) := by
  fun_induction overrun? value position digits with
  | case1 => exact fits
  | case2 value position digit rest small ih =>
      have spec := ih small
      split at spec
      · exact spec
      · obtain ⟨i, bound, rfl, before, after⟩ := spec
        exact ⟨i + 1, Nat.succ_lt_succ bound, by omega, before, after⟩
  | case3 value position digit rest large =>
      exact ⟨0, Nat.succ_pos _, rfl, fits, Nat.lt_of_not_le large⟩

theorem overrun?_eq_none_iff (position : Nat) (digits : List UInt8) :
    overrun? 0 position digits = none ↔ digitsValue digits ≤ largestLiteral := by
  have spec := overrun?_spec 0 position digits (Nat.zero_le _)
  cases found : overrun? 0 position digits with
  | none =>
      rw [found] at spec
      simp only [true_iff]
      exact spec
  | some point =>
      rw [found] at spec
      obtain ⟨i, bound, -, before, after⟩ := spec
      have large := GrowsTooLargeAt.too_large ⟨bound, before, after⟩
      simpa using large

theorem overrun?_eq_some_iff (position : Nat) (digits : List UInt8) (point : Nat) :
    overrun? 0 position digits = some point ↔
      ∃ i, point = position + i ∧ GrowsTooLargeAt digits i := by
  have spec := overrun?_spec 0 position digits (Nat.zero_le _)
  cases found : overrun? 0 position digits with
  | none =>
      have small := (overrun?_eq_none_iff position digits).mp found
      simp only [reduceCtorEq, false_iff, not_exists, not_and]
      intro i _ grows
      exact absurd grows.too_large (Nat.not_lt.mpr small)
  | some actual =>
      rw [found] at spec
      obtain ⟨i, bound, rfl, before, after⟩ := spec
      have grows : GrowsTooLargeAt digits i := ⟨bound, before, after⟩
      rw [Option.some.injEq]
      constructor
      · rintro rfl
        exact ⟨i, rfl, grows⟩
      · intro grown
        obtain ⟨j, rfl, other⟩ := grown
        rw [grows.unique other]

theorem exists_growsTooLarge {digits : List UInt8} (large : largestLiteral < digitsValue digits) :
    ∃ i, GrowsTooLargeAt digits i := by
  cases found : overrun? 0 0 digits with
  | none => exact absurd ((overrun?_eq_none_iff 0 digits).mp found) (Nat.not_le.mpr large)
  | some point =>
      obtain ⟨i, -, grows⟩ := (overrun?_eq_some_iff 0 digits point).mp found
      exact ⟨i, grows⟩

namespace Phrase

/-- The faults of a phrase inside `nesting` open parentheses, its first token having
position `base`. Only the outermost of the parentheses that are too deep counts. -/
def faults : {category : Category} → Phrase category → (nesting base : Nat) → List Fault
  | _, .literal digits _, _, base =>
    match overrun? 0 base digits with
    | some point => [⟨.literalTooLarge base, point⟩]
    | none => []
  | _, .group inner, nesting, base =>
    (if nesting = maxNesting then [⟨.nestingTooDeep base, base⟩] else []) ++
      inner.faults (nesting + 1) (base + 1)
  | _, .operand only, nesting, base => only.faults nesting base
  | _, .joined left op accepted right, nesting, base =>
    left.faults nesting base ++ right.faults nesting (base + left.tokens.length + 1) ++
      if ((joined left op accepted right).tree base).height ≤ maxTreeDepth then []
      else [⟨.expressionTooDeep (base + left.tokens.length),
        base + (joined left op accepted right).tokens.length⟩]

/-- The nodes of the tree in the order of `Tree.subtrees`, each with the index right
behind its last operand. -/
def nodes : {category : Category} → Phrase category → (base : Nat) → List (Tree × Nat)
  | _, .literal digits nonempty, base =>
    [((literal digits nonempty).tree base, base + digits.length)]
  | _, .group inner, base => inner.nodes (base + 1)
  | _, .operand only, base => only.nodes base
  | _, .joined left op accepted right, base =>
    left.nodes base ++ right.nodes (base + left.tokens.length + 1) ++
      [((joined left op accepted right).tree base,
        base + (joined left op accepted right).tokens.length)]

variable {category : Category}

theorem map_fst_nodes (phrase : Phrase category) (base : Nat) :
    (phrase.nodes base).map Prod.fst = (phrase.tree base).subtrees := by
  induction phrase generalizing base with
  | literal digits nonempty => rfl
  | group inner ih => exact ih (base + 1)
  | operand only ih => exact ih base
  | joined left op accepted right ihl ihr =>
      simp only [nodes, List.map_append, ihl, ihr, List.map_cons, List.map_nil, tree, Tree.subtrees]

/-- The first node that is too deep, found in the tree and found in the phrase. -/
theorem find?_subtrees (phrase : Phrase category) (base : Nat) :
    (phrase.tree base).subtrees.find? Tree.isTooDeep =
      ((phrase.nodes base).find? fun node => node.1.isTooDeep).map Prod.fst := by
  rw [← map_fst_nodes, List.find?_map]
  rfl

theorem faults_literal_eq_nil_iff {digits : List UInt8} (nonempty : digits ≠ [])
    (nesting base : Nat) :
    (literal digits nonempty).faults nesting base = [] ↔ digitsValue digits ≤ largestLiteral := by
  rw [← overrun?_eq_none_iff base, faults]
  cases overrun? 0 base digits with
  | none => simp only
  | some point => simp only [reduceCtorEq, List.cons_ne_self]

theorem faults_group_eq_nil_iff (inner : Phrase .expression) (nesting base : Nat) :
    (group inner).faults nesting base = [] ↔
      nesting ≠ maxNesting ∧ inner.faults (nesting + 1) (base + 1) = [] := by
  rw [faults, List.append_eq_nil_iff]
  by_cases full : nesting = maxNesting
  · rw [if_pos full]
    simp only [reduceCtorEq, false_and, ne_eq, full, not_true_eq_false]
  · rw [if_neg full]
    simp only [true_and, ne_eq, full, not_false_eq_true]

theorem faults_joined_eq_nil_iff {tight : Bool} (left : Phrase (.chain tight)) (op : Operator)
    (accepted : op.isMultiplicative = tight) (right : Phrase (.operand tight))
    (nesting base : Nat) :
    (joined left op accepted right).faults nesting base = [] ↔
      left.faults nesting base = [] ∧
      right.faults nesting (base + left.tokens.length + 1) = [] ∧
      ((joined left op accepted right).tree base).height ≤ maxTreeDepth := by
  rw [faults, List.append_eq_nil_iff, List.append_eq_nil_iff, and_assoc]
  by_cases shallow : ((joined left op accepted right).tree base).height ≤ maxTreeDepth
  · rw [if_pos shallow]
    simp only [shallow]
  · rw [if_neg shallow]
    simp only [shallow, reduceCtorEq]

theorem height_le_of_faultless {phrase : Phrase category} {nesting base : Nat}
    (faultless : phrase.faults nesting base = []) : (phrase.tree base).height ≤ maxTreeDepth := by
  induction phrase generalizing nesting base with
  | literal digits nonempty =>
      simp only [tree, Tree.height, maxTreeDepth]
      omega
  | group inner ih => exact ih ((faults_group_eq_nil_iff _ _ _).mp faultless).2
  | operand only ih => exact ih faultless
  | joined left op accepted right ihl ihr =>
      exact ((faults_joined_eq_nil_iff _ _ _ _ _ _).mp faultless).2.2

theorem faults_bounds (phrase : Phrase category) (nesting base : Nat) {fault : Fault}
    (member : fault ∈ phrase.faults nesting base) :
    base ≤ fault.point ∧ fault.point ≤ base + phrase.tokens.length ∧
      (fault.isDepth = false → fault.point < base + phrase.tokens.length) := by
  induction phrase generalizing nesting base with
  | literal digits nonempty =>
      simp only [faults] at member
      split at member
      · rename_i point found
        obtain ⟨i, rfl, grows⟩ := (overrun?_eq_some_iff base digits point).mp found
        cases List.mem_singleton.mp member
        have bound := grows.bound
        simp only [tokens, List.length_map]
        omega
      · cases member
  | group inner ih =>
      simp only [faults, List.mem_append] at member
      simp only [tokens, List.length_cons, List.length_append, List.length_nil]
      rcases member with self | inside
      · split at self
        · cases List.mem_singleton.mp self
          simp only
          omega
        · cases self
      · have bounds := ih (nesting + 1) (base + 1) inside
        omega
  | operand only ih => exact ih nesting base member
  | joined left op accepted right ihl ihr =>
      simp only [faults, List.mem_append] at member
      have length := left.length_joined op accepted right
      rcases member with (inLeft | inRight) | self
      · have bounds := ihl nesting base inLeft
        omega
      · obtain ⟨least, greatest, strict⟩ := ihr nesting (base + left.tokens.length + 1) inRight
        refine ⟨by omega, by omega, ?_⟩
        intro shallow
        have bound := strict shallow
        omega
      · split at self
        · cases self
        · cases List.mem_singleton.mp self
          simp only [Fault.isDepth, reduceCtorEq, false_implies, and_true]
          omega

theorem faults_pairwise (phrase : Phrase category) (nesting base : Nat) :
    (phrase.faults nesting base).Pairwise Fault.Precedes := by
  induction phrase generalizing nesting base with
  | literal digits nonempty =>
      simp only [faults]
      split
      · exact List.pairwise_singleton _ _
      · exact .nil
  | group inner ih =>
      simp only [faults]
      refine List.pairwise_append.mpr ⟨?_, ih (nesting + 1) (base + 1), ?_⟩
      · split
        · exact List.pairwise_singleton _ _
        · exact .nil
      · intro self member fault inside
        split at member
        · cases List.mem_singleton.mp member
          exact .inl (inner.faults_bounds (nesting + 1) (base + 1) inside).1
        · cases member
  | operand only ih => exact ih nesting base
  | joined left op accepted right ihl ihr =>
      simp only [faults]
      refine List.pairwise_append.mpr ⟨?_, ?_, ?_⟩
      · refine List.pairwise_append.mpr ⟨ihl _ _, ihr _ _, ?_⟩
        intro first inLeft second inRight
        have leftBounds := left.faults_bounds _ _ inLeft
        have rightBounds := right.faults_bounds _ _ inRight
        exact .inl (by omega)
      · split
        · exact .nil
        · exact List.pairwise_singleton _ _
      -- Only another operation can be found as late as this one.
      · intro fault inside self member
        split at member
        · cases member
        · cases List.mem_singleton.mp member
          have length := left.length_joined op accepted right
          rcases List.mem_append.mp inside with inLeft | inRight
          · have bounds := left.faults_bounds _ _ inLeft
            exact .inl (by simp only; omega)
          · have bounds := right.faults_bounds _ _ inRight
            cases depth : fault.isDepth with
            | false =>
                have strict := bounds.2.2 depth
                exact .inl (by simp only; omega)
            | true =>
                rcases Nat.lt_or_eq_of_le bounds.2.1 with less | same
                · exact .inl (by simp only; omega)
                · exact .inr ⟨by simp only; omega, depth, rfl⟩

end Phrase

end Arith
