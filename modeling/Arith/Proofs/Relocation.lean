import Arith.Proofs.Faults
import Arith.Proofs.Positions

/-! Phrases at another place.

Where a phrase stands shows in the positions of its tree only. Inside other parentheses it
may come to open too many, and it gets no other fault by being moved.
-/

set_option autoImplicit false

namespace Arith.Phrase

variable {category : Category}

theorem tree_relocated (phrase : Phrase category) {base place : Nat} {expr : Expr}
    {move : Nat → Nat} (same : phrase.tree base = expr.tree)
    (moves : ∀ i, i < phrase.tokens.length → move (base + i) = place + i) :
    phrase.tree place = (expr.mapPositions move).tree := by
  induction phrase generalizing base place expr with
  | literal digits nonempty =>
      obtain ⟨word, rfl, value⟩ := Expr.eq_literal_of_tree same
      have first := moves 0 (List.length_pos_iff.mpr (tokens_ne_nil _))
      simp only [Nat.add_zero] at first
      simp only [tree, Expr.mapPositions, Expr.tree, value, first]
  | group inner ih =>
      apply ih same
      intro i bound
      have inside := moves (i + 1) (by
        simp only [tokens, List.length_cons, List.length_append]
        omega)
      rw [show base + 1 + i = base + (i + 1) by omega, inside]
      omega
  | operand only ih => exact ih same moves
  | joined left op accepted right ihl ihr =>
      obtain ⟨leftExpr, rightExpr, rfl, inLeft, inRight⟩ := Expr.eq_operation_of_tree same
      have length := left.length_joined op accepted right
      have movedLeft := ihl inLeft fun i bound => moves i (by omega)
      have movedRight : right.tree (place + left.tokens.length + 1) =
          (rightExpr.mapPositions move).tree := by
        apply ihr inRight
        intro i bound
        have behind := moves (left.tokens.length + 1 + i) (by omega)
        rw [show base + left.tokens.length + 1 + i = base + (left.tokens.length + 1 + i) by omega,
          behind]
        omega
      have own := moves left.tokens.length (by omega)
      simp only [tree, Expr.mapPositions, Expr.tree, movedLeft, movedRight, own]

theorem tree_shifted (phrase : Phrase category) {base : Nat} {expr : Expr}
    (same : phrase.tree base = expr.tree) (distance : Nat) :
    phrase.tree (base + distance) = (expr.mapPositions (· + distance)).tree := by
  apply phrase.tree_relocated same
  intro i _
  exact Nat.add_right_comm base i distance

theorem height_tree_eq (phrase : Phrase category) (base place : Nat) :
    (phrase.tree base).height = (phrase.tree place).height := by
  induction phrase generalizing base place with
  | literal digits nonempty => rfl
  | group inner ih => exact ih (base + 1) (place + 1)
  | operand only ih => exact ih base place
  | joined left op accepted right ihl ihr =>
      rw [tree, tree, Tree.height, Tree.height, ihl base place,
        ihr _ (place + left.tokens.length + 1)]

/-- A phrase without faults has, anywhere else, at most parentheses that open too far in. -/
theorem faults_elsewhere {phrase : Phrase category} {within base : Nat}
    (faultless : phrase.faults within base = []) {nesting place : Nat} {fault : Fault}
    (member : fault ∈ phrase.faults nesting place) :
    fault.cause = .nestingTooDeep fault.point := by
  induction phrase generalizing within base nesting place with
  | literal digits nonempty =>
      rw [faults_literal_eq_nil_iff] at faultless
      rw [(faults_literal_eq_nil_iff nonempty nesting place).mpr faultless] at member
      cases member
  | group inner ih =>
      have inside := ((faults_group_eq_nil_iff _ _ _).mp faultless).2
      rcases List.mem_append.mp member with self | inInner
      · split at self
        · cases List.mem_singleton.mp self
          rfl
        · cases self
      · exact ih inside inInner
  | operand only ih => exact ih faultless member
  | joined left op accepted right ihl ihr =>
      obtain ⟨inLeft, inRight, shallow⟩ := (faults_joined_eq_nil_iff _ _ _ _ _ _).mp faultless
      rw [height_tree_eq _ base place] at shallow
      rw [faults, if_pos shallow, List.append_nil] at member
      rcases List.mem_append.mp member with memberLeft | memberRight
      · exact ihl inLeft memberLeft
      · exact ihr inRight memberRight

theorem faults_group_elsewhere {inner : Phrase .expression} {within base : Nat}
    (inside : inner.faults within base = []) {nesting place : Nat} {fault : Fault}
    (member : fault ∈ (group inner).faults nesting place) :
    fault.cause = .nestingTooDeep fault.point ∧ place ≤ fault.point ∧
      fault.point ≤ place + inner.tokens.length := by
  rcases List.mem_append.mp member with self | inInner
  · split at self
    · cases List.mem_singleton.mp self
      exact ⟨rfl, Nat.le_refl _, Nat.le_add_right _ _⟩
    · cases self
  · have cause := faults_elsewhere inside inInner
    obtain ⟨least, -, strict⟩ := inner.faults_bounds _ _ inInner
    have shallow : fault.isDepth = false := by
      unfold Fault.isDepth
      split
      · cases cause
      · rfl
    have bound := strict shallow
    exact ⟨cause, by omega, by omega⟩

theorem faults_group_eq_nil_iff_nesting {inner : Phrase .expression}
    (inside : ∀ {outside : Nat}, outside ≤ maxNesting → ∀ place,
      (inner.faults outside place = [] ↔ outside + inner.nesting ≤ maxNesting))
    {outside : Nat} (limit : outside ≤ maxNesting) (place : Nat) :
    (group inner).faults outside place = [] ↔
      outside + (group inner).nesting ≤ maxNesting := by
  rw [faults_group_eq_nil_iff, nesting]
  by_cases full : outside = maxNesting
  · simp only [full, ne_eq, not_true_eq_false, false_and, false_iff]
    omega
  · rw [inside (by omega)]
    omega

theorem faults_elsewhere_eq_nil_iff {phrase : Phrase category} {within base : Nat}
    (faultless : phrase.faults within base = []) {outside : Nat} (limit : outside ≤ maxNesting)
    (place : Nat) :
    phrase.faults outside place = [] ↔ outside + phrase.nesting ≤ maxNesting := by
  induction phrase generalizing within base outside place with
  | literal digits nonempty =>
      rw [faults_literal_eq_nil_iff] at faultless ⊢
      exact ⟨fun _ => limit, fun _ => faultless⟩
  | group inner ih =>
      have inside := ((faults_group_eq_nil_iff _ _ _).mp faultless).2
      exact faults_group_eq_nil_iff_nesting (ih inside) limit place
  | operand only ih => exact ih faultless limit place
  | joined left op accepted right ihl ihr =>
      obtain ⟨inLeft, inRight, shallow⟩ := (faults_joined_eq_nil_iff _ _ _ _ _ _).mp faultless
      rw [height_tree_eq _ base place] at shallow
      rw [faults_joined_eq_nil_iff, ihl inLeft limit, ihr inRight limit, nesting]
      simp only [shallow, and_true]
      omega

theorem faults_group_elsewhere_eq_nil_iff {inner : Phrase .expression} {within base : Nat}
    (inside : inner.faults within base = []) {outside : Nat} (limit : outside ≤ maxNesting)
    (place : Nat) :
    (group inner).faults outside place = [] ↔ outside + 1 + inner.nesting ≤ maxNesting := by
  rw [faults_group_eq_nil_iff_nesting (faults_elsewhere_eq_nil_iff inside) limit, nesting]
  omega

theorem faults_relocated {phrase : Phrase category} {nesting base : Nat}
    (faultless : phrase.faults nesting base = []) (limit : nesting ≤ maxNesting) (place : Nat) :
    phrase.faults nesting place = [] := by
  have room := (faults_elsewhere_eq_nil_iff faultless limit base).mp faultless
  exact (faults_elsewhere_eq_nil_iff faultless limit place).mpr room

end Arith.Phrase
