import Arith.Expr.Postorder
import Arith.Proofs.Parser.Cursor

/-! The reductions that the rules make on the way.

A rule that answers with a tree has made its operations, in the order left operand, right
operand, operation. A rule that fails has made operations at distinct operators of what it
read, and the one that is too deep is not among them.
-/

set_option autoImplicit false

namespace Arith

open Arith.Parser

def Node.reduction? : Node → Option Reduction
  | .literal _ _ => none
  | .operation op position => some ⟨op, position⟩

def Expr.reductions (expr : Expr) : List Reduction :=
  expr.postorder.filterMap Node.reduction?

theorem Expr.reductions_literal (value : Int64) (position : Nat) :
    (literal value position).reductions = [] :=
  rfl

theorem Expr.reductions_operation (op : Operator) (left right : Expr) (position : Nat) :
    (operation op left right position).reductions =
      left.reductions ++ right.reductions ++ [⟨op, position⟩] := by
  rw [reductions, postorder_operation, List.filterMap_append, List.filterMap_append]
  rfl

namespace Parser

def State.Inside (state : State) (tokens : List Token) : Prop :=
  state.rest = tokens.drop state.position

/-- Reductions at distinct operators of the sequence, none before the place. -/
structure Made (tokens : List Token) (place : Nat) (made : List Reduction) : Prop where
  distinct : (made.map Reduction.position).Nodup
  least : ∀ reduction ∈ made, place ≤ reduction.position
  located : ∀ reduction ∈ made,
    tokens[reduction.position]? = some (.operator reduction.op)

def Reports (tokens : List Token) (state : State) : Outcome → Prop
  | ⟨.ok parsed, after⟩ =>
    after.Inside tokens ∧ state.position ≤ after.position ∧
      after.reductions = parsed.expr.reductions.reverse ++ state.reductions ∧
      Made tokens state.position parsed.expr.reductions ∧
      ∀ reduction ∈ parsed.expr.reductions, reduction.position < after.position
  | ⟨.error cause, after⟩ => ∃ made,
    after.reductions = made.reverse ++ state.reductions ∧
      Made tokens state.position made ∧
      ∀ position, cause = .expressionTooDeep position →
        state.position ≤ position ∧ ∀ reduction ∈ made, reduction.position ≠ position

section
variable {tokens rest : List Token} {state : State} {token : Token}

theorem State.Inside.look (inside : state.Inside tokens) (here : state.rest = token :: rest) :
    tokens[state.position]? = some token := by
  rw [← List.head?_drop, ← inside, here, List.head?_cons]

theorem State.Inside.advance (inside : state.Inside tokens) : state.advance.Inside tokens := by
  unfold Inside State.advance at *
  split
  · exact inside
  · rename_i here
    rw [← List.drop_drop, ← inside, here, List.drop_succ_cons, List.drop_zero]

@[simp] theorem State.reductions_advance (state : State) :
    state.advance.reductions = state.reductions := by
  unfold advance
  split <;> rfl

theorem State.le_position_advance (state : State) :
    state.position ≤ state.advance.position := by
  unfold advance
  split
  · exact Nat.le_refl _
  · exact Nat.le_succ _

theorem Made.nil (tokens : List Token) (place : Nat) : Made tokens place [] :=
  ⟨List.nodup_nil, by simp, by simp⟩

theorem Made.single {place position : Nat} {op : Operator} (le : place ≤ position)
    (own : tokens[position]? = some (.operator op)) :
    Made tokens place [⟨op, position⟩] :=
  ⟨by simp, by simpa using le, by simpa using own⟩

theorem Made.earlier {place middle : Nat} {made : List Reduction} (later : Made tokens middle made)
    (le : place ≤ middle) : Made tokens place made :=
  ⟨later.distinct, fun reduction member => Nat.le_trans le (later.least reduction member),
    later.located⟩

theorem Made.append {place : Nat} {made more : List Reduction} (first : Made tokens place made)
    (second : Made tokens place more)
    (apart : ∀ reduction ∈ made, ∀ further ∈ more, reduction.position ≠ further.position) :
    Made tokens place (made ++ more) := by
  refine ⟨?_, ?_, ?_⟩
  · rw [List.map_append, List.nodup_append]
    refine ⟨first.distinct, second.distinct, ?_⟩
    intro position inMade other inMore
    obtain ⟨reduction, member, rfl⟩ := List.mem_map.mp inMade
    obtain ⟨further, memberMore, rfl⟩ := List.mem_map.mp inMore
    exact apart reduction member further memberMore
  · intro reduction member
    rcases List.mem_append.mp member with inMade | inMore
    · exact first.least reduction inMade
    · exact second.least reduction inMore
  · intro reduction member
    rcases List.mem_append.mp member with inMade | inMore
    · exact first.located reduction inMade
    · exact second.located reduction inMore

theorem Reports.behind {inner after : State} {cause : ParseError} {made : List Reduction}
    (failed : Reports tokens inner ⟨.error cause, after⟩)
    (recorded : inner.reductions = made.reverse ++ state.reductions)
    (before : Made tokens state.position made) (le : state.position ≤ inner.position)
    (apart : ∀ reduction ∈ made, reduction.position < inner.position) :
    Reports tokens state ⟨.error cause, after⟩ := by
  obtain ⟨more, same, behind, tooDeep⟩ := failed
  refine ⟨made ++ more, ?_, before.append (behind.earlier le) ?_, ?_⟩
  · rw [same, recorded, List.reverse_append, List.append_assoc]
  · intro reduction member further memberMore
    have first := apart reduction member
    have second := behind.least further memberMore
    omega
  · intro position deep
    obtain ⟨least, others⟩ := tooDeep position deep
    refine ⟨Nat.le_trans le least, ?_⟩
    intro reduction member
    rcases List.mem_append.mp member with inMade | inMore
    · have first := apart reduction inMade
      omega
    · exact others reduction inMore

theorem reports_error {after : State} {cause : ParseError}
    (same : after.reductions = state.reductions)
    (other : ∀ position, cause ≠ .expressionTooDeep position) :
    Reports tokens state ⟨.error cause, after⟩ :=
  ⟨[], same, .nil tokens _, fun position deep => absurd deep (other position)⟩

theorem Reads.inside {category : Category} {phrase : Phrase category} {parsed : Parsed}
    {after : State} (reads : Reads phrase state parsed after) (inside : state.Inside tokens) :
    after.Inside tokens := by
  unfold State.Inside at *
  rw [reads.position, ← List.drop_drop, ← inside, reads.tokens, List.drop_left]

theorem literal_reports {digit : UInt8} (inside : state.Inside tokens)
    (here : state.rest = .digit digit :: rest) : Reports tokens state (literal state) := by
  have consumed := literal_consumes here
  unfold literal at consumed ⊢
  generalize foldDigits 0 state.position state.rest = folded at consumed ⊢
  obtain ⟨value?, position, behind⟩ := folded
  cases value? with
  | none => exact reports_error rfl (by simp)
  | some value =>
      obtain ⟨phrase, -, reads, -⟩ := consumed
      have place : position = state.position + phrase.tokens.length := reads.position
      refine ⟨reads.inside inside, ?_, rfl, .nil tokens _, ?_⟩
      · simp only [place, Nat.le_add_right]
      · simp [Parsed.literal, Expr.reductions_literal]

section
variable {start after : State} {left right : Parsed} {op : Operator}

/-- The operands of an operation make their reductions on either side of the operator. -/
theorem Reports.operands (soFar : Reports tokens start ⟨.ok left, state⟩)
    (here : state.rest = .operator op :: rest)
    (behind : Reports tokens state.advance ⟨.ok right, after⟩) :
    after.reductions =
        (left.expr.reductions ++ right.expr.reductions).reverse ++ start.reductions ∧
      Made tokens start.position (left.expr.reductions ++ right.expr.reductions) ∧
      ∀ reduction ∈ left.expr.reductions ++ right.expr.reductions,
        reduction.position < after.position ∧ reduction.position ≠ state.position := by
  obtain ⟨-, le, recorded, made, bound⟩ := soFar
  obtain ⟨-, further, recordedBehind, madeBehind, boundBehind⟩ := behind
  simp only [advance_eq here] at further recordedBehind madeBehind
  refine ⟨?_, made.append (madeBehind.earlier (Nat.le_succ_of_le le)) ?_, ?_⟩
  · rw [recordedBehind, recorded, List.reverse_append, List.append_assoc]
  · intro reduction member other memberBehind
    have first := bound reduction member
    have second := madeBehind.least other memberBehind
    omega
  · intro reduction member
    rcases List.mem_append.mp member with inLeft | inRight
    · have first := bound reduction inLeft
      omega
    · have second := madeBehind.least reduction inRight
      have last := boundBehind reduction inRight
      omega

theorem Reports.joined (soFar : Reports tokens start ⟨.ok left, state⟩)
    (here : state.rest = .operator op :: rest)
    (behind : Reports tokens state.advance ⟨.ok right, after⟩) :
    Reports tokens start
      ⟨.ok (left.join op right state.position), after.reduce op state.position⟩ := by
  obtain ⟨recorded, made, apart⟩ := soFar.operands here behind
  have own := soFar.1.look here
  have le := soFar.2.1
  have further : state.position + 1 ≤ after.position := by
    have next := behind.2.1
    rwa [advance_eq here] at next
  have all : (left.join op right state.position).expr.reductions =
      left.expr.reductions ++ right.expr.reductions ++ [⟨op, state.position⟩] :=
    Expr.reductions_operation _ _ _ _
  refine ⟨behind.1, Nat.le_trans le (Nat.le_of_succ_le further), ?_, ?_, ?_⟩
  · rw [all, List.reverse_append, State.reduce, recorded]
    rfl
  · rw [all]
    apply made.append (.single le own)
    intro reduction member other inOwn
    cases List.mem_singleton.mp inOwn
    exact (apart reduction member).2
  · rw [all]
    intro reduction member
    rcases List.mem_append.mp member with inOperand | inOwn
    · exact (apart reduction inOperand).1
    · cases List.mem_singleton.mp inOwn
      exact further

/-- The operation that is too deep is not recorded, its operands' are. -/
theorem Reports.too_deep (soFar : Reports tokens start ⟨.ok left, state⟩)
    (here : state.rest = .operator op :: rest)
    (behind : Reports tokens state.advance ⟨.ok right, after⟩) :
    Reports tokens start ⟨.error (.expressionTooDeep state.position), after⟩ := by
  obtain ⟨recorded, made, apart⟩ := soFar.operands here behind
  refine ⟨_, recorded, made, ?_⟩
  intro position same
  cases same
  exact ⟨soFar.2.1, fun reduction member => (apart reduction member).2⟩

end

end

section
variable {tokens : List Token} {accepts : Operator → Bool} {operand : Rule}

theorem chainFrom_reports
    (operands : ∀ state, state.Inside tokens → Reports tokens state (operand state))
    {start : State} (left : Parsed) (state : State)
    (soFar : Reports tokens start ⟨.ok left, state⟩) :
    Reports tokens start (chainFrom accepts operand left state) := by
  fun_induction chainFrom accepts operand left state with
  -- The induction is on the rounds of the loop: `left` is what was joined before a round.
  | case1 left state op behind here accepted cause after answered =>
      have failed := operands state.advance soFar.1.advance
      rw [answered] at failed
      obtain ⟨inside, le, recorded, made, bound⟩ := soFar
      have further := state.le_position_advance
      apply failed.behind _ made (Nat.le_trans le further)
      · intro reduction member
        exact Nat.lt_of_lt_of_le (bound reduction member) further
      · rw [State.reductions_advance, recorded]
  | case2 left state op behind here accepted right after answered shallow ih =>
      have read := operands state.advance soFar.1.advance
      rw [answered] at read
      exact ih (soFar.joined here read)
  | case3 left state op behind here accepted right after answered deep =>
      have read := operands state.advance soFar.1.advance
      rw [answered] at read
      exact soFar.too_deep here read
  | case4 left state op behind here refused => exact soFar
  | case5 left state elsewhere => exact soFar

theorem chain_reports
    (operands : ∀ state, state.Inside tokens → Reports tokens state (operand state))
    (state : State) (inside : state.Inside tokens) :
    Reports tokens state (chain accepts operand state) := by
  have reported := operands state inside
  rw [chain_eq]
  generalize operand state = outcome at reported ⊢
  obtain ⟨result, after⟩ := outcome
  cases result with
  | error cause => exact reported
  | ok parsed => exact chainFrom_reports operands parsed after reported

theorem group_reports {inner : Rule}
    (reports : ∀ state, state.Inside tokens → Reports tokens state (inner state))
    (state : State) (inside : state.Inside tokens) : Reports tokens state (group inner state) := by
  have reported := reports state.advance inside.advance
  have further := state.le_position_advance
  rw [group_eq]
  generalize inner state.advance = outcome at reported ⊢
  obtain ⟨result, after⟩ := outcome
  cases result with
  | error cause =>
      have none : state.advance.reductions = ([] : List Reduction).reverse ++ state.reductions :=
        state.reductions_advance
      exact reported.behind none (.nil tokens _) further (by simp)
  | ok parsed =>
      obtain ⟨insideAfter, le, recorded, made, bound⟩ := reported
      rw [State.reductions_advance] at recorded
      have whole := made.earlier further
      change Reports tokens state (close state.position parsed after)
      unfold close
      split
      · have last := after.le_position_advance
        refine ⟨insideAfter.advance, by omega, ?_, whole, ?_⟩
        · rw [State.reductions_advance, recorded]
        · intro reduction member
          exact Nat.lt_of_lt_of_le (bound reduction member) last
      · refine ⟨_, ?_, whole, by simp⟩
        rw [State.reductions_advance, recorded]

theorem factorOf_reports {group : Rule}
    (groups : ∀ state, state.Inside tokens → Reports tokens state (group state))
    (state : State) (inside : state.Inside tokens) :
    Reports tokens state (factorOf group state) := by
  cases here : state.rest with
  | nil =>
      rw [factorOf, here]
      exact reports_error rfl (by simp)
  | cons token rest =>
      rw [factorOf, here]
      cases token with
      | digit digit => exact literal_reports inside here
      | openParen => exact groups state inside
      | closeParen | operator op => exact reports_error rfl (by simp)

theorem factor_reports (allowance : Nat) (state : State) (inside : state.Inside tokens) :
    Reports tokens state (factor allowance state) := by
  induction allowance generalizing state with
  | zero =>
      refine factorOf_reports ?_ state inside
      intro state _
      exact reports_error rfl (by simp)
  | succ allowance ih =>
      exact factorOf_reports (group_reports (chain_reports (chain_reports ih))) state inside

theorem expression_reports (nesting : Nat) (state : State) (inside : state.Inside tokens) :
    Reports tokens state (expression nesting state) :=
  chain_reports (chain_reports (factor_reports (maxNesting - nesting))) state inside

end

end Parser

end Arith
