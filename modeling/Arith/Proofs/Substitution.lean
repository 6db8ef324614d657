import Arith.Proofs.Context
import Arith.Proofs.Inorder
import Arith.Proofs.LimitErrors

/-! A group in place of a literal.

An accepted sequence may stand in parentheses where another one has a literal. The tree is
then that of the literal's sequence with the other tree in place of the leaf, as long as no
limit is exceeded. Otherwise the error is found at a parenthesis that was put in, or at an
operator that is too deep with what was put in.
-/

set_option autoImplicit false

namespace Arith

def withGroup (tokens : List Token) (start length : Nat) (inner : List Token) : List Token :=
  tokens.take start ++ .openParen :: (inner ++ .closeParen :: tokens.drop (start + length))

def openWithGroup (tokens : List Token) (start : Nat) (inner : List Token) : Nat :=
  (unclosed (tokens.take start)).length + 1 + mostOpen inner

/-- Where a position behind `place` comes to be if what stands there changes its length. -/
def movedBehind (place oldLength newLength position : Nat) : Nat :=
  if place < position then position + newLength - oldLength else position

namespace Expr

/-- The tree with `inner` in place of the literal at `leaf`, its own nodes being moved. -/
def substitute : (expr : Expr) → (leaf : Nat) → (inner : Expr) → (move : Nat → Nat) → Expr
  | .literal value position, leaf, inner, move =>
    if position = leaf then inner else .literal value (move position)
  | .operation op left right position, leaf, inner, move =>
    .operation op (left.substitute leaf inner move) (right.substitute leaf inner move)
      (move position)

theorem height_substitute (expr : Expr) (leaf : Nat) {first second : Expr}
    (same : first.height = second.height) (move other : Nat → Nat) :
    (expr.substitute leaf first move).height = (expr.substitute leaf second other).height := by
  induction expr with
  | literal value position =>
      unfold substitute
      split
      · exact same
      · rfl
  | operation op left right position ihl ihr => simp only [substitute, height, ihl, ihr]

/-- A tree without the leaf is only moved. -/
theorem substitute_apart {expr : Expr} {leaf : Nat} (inner : Expr) (move : Nat → Nat)
    (apart : ∀ node ∈ expr.inorder, node.position ≠ leaf) :
    expr.substitute leaf inner move = expr.mapPositions move := by
  induction expr with
  | literal value position => exact if_neg (apart _ (List.mem_singleton.mpr rfl))
  | operation op left right position ihl ihr =>
      have inLeft := ihl fun node member => apart node (List.mem_append_left _ member)
      have inRight := ihr fun node member =>
        apart node (List.mem_append_right _ (List.mem_cons_of_mem _ member))
      rw [substitute, inLeft, inRight, mapPositions]

end Expr

theorem Phrase.tree_apart {category : Category} (phrase : Phrase category)
    {base place leaf : Nat} {expr : Expr} {move : Nat → Nat} (inner : Expr)
    (same : phrase.tree base = expr.tree)
    (apart : leaf < base ∨ base + phrase.tokens.length ≤ leaf)
    (moves : ∀ i, i < phrase.tokens.length → move (base + i) = place + i) :
    phrase.tree place = (expr.substitute leaf inner move).tree := by
  rw [Expr.substitute_apart]
  · exact phrase.tree_relocated same moves
  · intro node member
    have bounds := phrase.inorder_bounds same member
    omega

namespace Context

variable {category : Category}

theorem tree_fill (context : Context category) {digits : List UInt8} {nonempty : digits ≠ []}
    {factor : Phrase .factor} {base leaf : Nat} {expr inner : Expr}
    (place : base + context.before.length = leaf)
    (same : (context.fill (.literal digits nonempty)).tree base = expr.tree)
    (filled : factor.tree leaf = inner.tree) :
    (context.fill factor).tree base =
      (expr.substitute leaf inner
        (movedBehind leaf digits.length factor.tokens.length)).tree := by
  induction context generalizing base expr with
  | hole =>
      obtain ⟨word, rfl, -⟩ := Expr.eq_literal_of_tree same
      obtain rfl : base = leaf := place
      rw [fill, Expr.substitute, if_pos rfl]
      exact filled
  | group inner ih =>
      rw [before, List.length_cons] at place
      exact ih (by omega) same
  | operand only ih => exact ih place same
  | inLeft left op accepted right ih =>
      obtain ⟨leftExpr, rightExpr, rfl, inLeft, inRight⟩ := Expr.eq_operation_of_tree same
      rw [before] at place
      have pos := List.length_pos_iff.mpr nonempty
      have oldLength := left.length_fill (.literal digits nonempty)
      have newLength := left.length_fill factor
      rw [Phrase.tokens, List.length_map] at oldLength
      have filledLeft := ih place inLeft
      -- All that stands behind the leaf moves by the difference of the lengths.
      have movedRight : right.tree (base + (left.fill factor).tokens.length + 1) =
          (rightExpr.substitute leaf inner
            (movedBehind leaf digits.length factor.tokens.length)).tree := by
        apply right.tree_apart inner inRight (.inl (by omega))
        intro i _
        rw [movedBehind, if_pos (by omega)]
        omega
      have own : movedBehind leaf digits.length factor.tokens.length
          (base + (left.fill (.literal digits nonempty)).tokens.length) =
            base + (left.fill factor).tokens.length := by
        rw [movedBehind, if_pos (by omega)]
        omega
      rw [fill, Phrase.tree, filledLeft, movedRight, Expr.substitute, Expr.tree, own]
  | inRight left op accepted right ih =>
      obtain ⟨leftExpr, rightExpr, rfl, inLeft, inRight⟩ := Expr.eq_operation_of_tree same
      rw [before, List.length_append, List.length_cons] at place
      have filledRight := ih (by omega) inRight
      have keptLeft : left.tree base = (leftExpr.substitute leaf inner
          (movedBehind leaf digits.length factor.tokens.length)).tree := by
        apply left.tree_apart inner inLeft (.inr (by omega))
        intro i bound
        exact if_neg (by omega)
      have own : movedBehind leaf digits.length factor.tokens.length
          (base + left.tokens.length) = base + left.tokens.length :=
        if_neg (by omega)
      rw [fill, Phrase.tree, keptLeft, filledRight, Expr.substitute, Expr.tree, own]

end Context

section
variable {context : Context .expression} {old : Phrase .factor} {inner : Phrase .expression}

theorem Context.depth_le_of_faultless (faultless : (context.fill old).faults 0 0 = []) :
    context.depth ≤ maxNesting := by
  have whole := (Phrase.faults_elsewhere_eq_nil_iff faultless (Nat.zero_le _) 0).mp faultless
  have around := context.depth_le_nesting old
  omega

theorem parseTree_fill_crowded (faultless : (context.fill old).faults 0 0 = [])
    (inside : inner.faults 0 0 = [])
    (crowded : maxNesting < context.depth + 1 + inner.nesting) :
    ∃ position,
      parseTree (context.fill (.group inner)).tokens = .error (.nestingTooDeep position) ∧
      context.before.length ≤ position ∧
      position ≤ context.before.length + inner.tokens.length := by
  obtain ⟨later, split, -⟩ := Context.faults_fill faultless (Nat.zero_le _) (.group inner)
  rw [Nat.zero_add, Nat.zero_add] at split
  have limit := Context.depth_le_of_faultless faultless
  have faulty : (Phrase.group inner).faults context.depth context.before.length ≠ [] := by
    rw [ne_eq, Phrase.faults_group_elsewhere_eq_nil_iff inside limit]
    omega
  obtain ⟨fault, member, error⟩ := parseTree_of_faults split faulty
  obtain ⟨cause, least, greatest⟩ := Phrase.faults_group_elsewhere inside member
  rw [cause] at error
  exact ⟨fault.point, error, least, greatest⟩

theorem Context.exceeds_of_mem_faults (faultless : (context.fill old).faults 0 0 = [])
    (inside : inner.faults 0 0 = []) (room : context.depth + 1 + inner.nesting ≤ maxNesting)
    {fault : Fault} (member : fault ∈ (context.fill (.group inner)).faults 0 0) :
    context.Exceeds (.group inner) 0 fault.cause := by
  obtain ⟨later, split, exceeding⟩ := faults_fill faultless (Nat.zero_le _) (.group inner)
  have limit := depth_le_of_faultless faultless
  have none := (Phrase.faults_group_elsewhere_eq_nil_iff inside limit
    (0 + context.before.length)).mpr room
  rw [Nat.zero_add context.depth, none, List.nil_append] at split
  rw [split] at member
  exact exceeding fault member

theorem parseTree_fill_too_deep (faultless : (context.fill old).faults 0 0 = [])
    (inside : inner.faults 0 0 = []) (room : context.depth + 1 + inner.nesting ≤ maxNesting)
    (deep : maxTreeDepth < ((context.fill (.group inner)).tree 0).height) :
    ∃ position op,
      parseTree (context.fill (.group inner)).tokens = .error (.expressionTooDeep position) ∧
      (context.fill (.group inner)).tokens[position]? = some (.operator op) ∧
      (position < context.before.length ∨
        context.before.length + inner.tokens.length + 2 ≤ position) := by
  have faulty : (context.fill (.group inner)).faults 0 0 ≠ [] := by
    intro none
    exact absurd (Phrase.height_le_of_faultless none) (Nat.not_le.mpr deep)
  obtain ⟨⟨cause, point⟩, member, error⟩ :=
    parseTree_of_faults (List.append_nil _).symm faulty
  obtain ⟨⟨position, rfl, outside⟩, -⟩ := Context.exceeds_of_mem_faults faultless inside room member
  obtain ⟨index, op, same, found⟩ := Phrase.operator_of_mem_faults member
  rw [Nat.zero_add] at same outside
  subst same
  refine ⟨position, op, error, found, ?_⟩
  simp only [Phrase.tokens, List.length_cons, List.length_append, List.length_nil] at outside
  omega

theorem parseTree_fill_ok {expr : Expr} (faultless : (context.fill old).faults 0 0 = [])
    (inside : inner.faults 0 0 = []) (room : context.depth + 1 + inner.nesting ≤ maxNesting)
    (same : (context.fill (.group inner)).tree 0 = expr.tree)
    (shallow : expr.height ≤ maxTreeDepth) :
    parseTree (context.fill (.group inner)).tokens = .ok expr := by
  rw [parseTree_eq_ok_iff_phrase]
  refine ⟨List.eq_nil_iff_forall_not_mem.mpr ?_, same⟩
  intro fault member
  have deep := (Context.exceeds_of_mem_faults faultless inside room member).deep
  rw [same, Tree.height_tree] at deep
  omega

end

theorem withGroup_fill (context : Context .expression) {digits : List UInt8}
    (nonempty : digits ≠ []) (inner : Phrase .expression) :
    withGroup (context.fill (.literal digits nonempty)).tokens context.before.length digits.length
      inner.tokens = (context.fill (.group inner)).tokens := by
  have behind : (digits.map Token.digit ++ context.after).drop digits.length = context.after :=
    List.drop_left' (List.length_map _)
  rw [withGroup, Context.tokens_fill, Context.tokens_fill, Phrase.tokens, Phrase.tokens,
    List.take_left, ← List.drop_drop, List.drop_left, behind, List.cons_append, List.append_assoc,
    List.singleton_append]

theorem openWithGroup_fill (context : Context .expression) (factor : Phrase .factor)
    (inner : Phrase .expression) :
    openWithGroup (context.fill factor).tokens context.before.length inner.tokens =
      context.depth + 1 + inner.nesting := by
  rw [openWithGroup, Context.tokens_fill, List.take_left, unclosed,
    Context.length_unclosedFrom_before, inner.mostOpen_tokens, List.length_nil, Nat.zero_add]

/-- An accepted sequence in parentheses in place of a literal of an accepted sequence. Every
run of digits is such a literal, as the first part says. -/
theorem substitution_exact {tokens inner : List Token} {expr innerExpr : Expr} {start : Nat}
    {digits : List UInt8} (accepted : parseTree tokens = .ok expr)
    (run : DigitRun tokens start digits) (acceptedInner : parseTree inner = .ok innerExpr) :
    (∃ value, .literal value start ∈ expr.inorder) ∧
    ((∃ result, parseTree (withGroup tokens start digits.length inner) = .ok result) ↔
      openWithGroup tokens start inner ≤ maxNesting ∧
      (expr.substitute start innerExpr id).depth ≤ maxTreeDepth) ∧
    (openWithGroup tokens start inner ≤ maxNesting →
      (expr.substitute start innerExpr id).depth ≤ maxTreeDepth →
      parseTree (withGroup tokens start digits.length inner) =
        .ok (expr.substitute start (innerExpr.mapPositions (· + (start + 1)))
          (movedBehind start digits.length (inner.length + 2)))) ∧
    (maxNesting < openWithGroup tokens start inner →
      ∃ position, parseTree (withGroup tokens start digits.length inner) =
          .error (.nestingTooDeep position) ∧
        (withGroup tokens start digits.length inner)[position]? = some .openParen ∧
        start ≤ position ∧ position ≤ start + inner.length) ∧
    (openWithGroup tokens start inner ≤ maxNesting →
      maxTreeDepth < (expr.substitute start innerExpr id).depth →
      ∃ position op, parseTree (withGroup tokens start digits.length inner) =
          .error (.expressionTooDeep position) ∧
        (withGroup tokens start digits.length inner)[position]? = some (.operator op) ∧
        (position < start ∨ start + inner.length + 2 ≤ position)) := by
  obtain ⟨phrase, rfl⟩ := parseTree_ok accepted
  obtain ⟨faultless, same⟩ := (parseTree_eq_ok_iff_phrase phrase expr).mp accepted
  obtain ⟨word, -, leaf⟩ := (phrase.inorder_literals same _ start).mpr ⟨digits, run, rfl⟩
  obtain ⟨context, nonempty, rfl, rfl⟩ := Context.exists_of_digitRun phrase run
  obtain ⟨innerPhrase, rfl⟩ := parseTree_ok acceptedInner
  obtain ⟨inside, innerSame⟩ :=
    (parseTree_eq_ok_iff_phrase innerPhrase innerExpr).mp acceptedInner
  rw [withGroup_fill, openWithGroup_fill, Expr.depth_eq_height]
  -- The group's tree is that of its expression, one place behind the leaf.
  have filled : (Phrase.group innerPhrase).tree context.before.length =
      (innerExpr.mapPositions (· + (context.before.length + 1))).tree := by
    have moved := innerPhrase.tree_shifted innerSame (context.before.length + 1)
    rwa [Nat.zero_add] at moved
  have tree := context.tree_fill (Nat.zero_add _) same filled
  have length : (Phrase.group innerPhrase).tokens.length = innerPhrase.tokens.length + 2 := by
    simp only [Phrase.tokens, List.length_cons, List.length_append, List.length_nil]
  rw [length] at tree
  have height : (expr.substitute context.before.length innerExpr id).height =
      ((context.fill (.group innerPhrase)).tree 0).height := by
    rw [tree, Tree.height_tree]
    exact expr.height_substitute _ (innerExpr.height_mapPositions _).symm _ _
  have crowded := fun crowd => parseTree_fill_crowded faultless inside crowd
  have deep := fun room => parseTree_fill_too_deep faultless inside room
  have fits := fun room => parseTree_fill_ok faultless inside room tree
  rw [← Tree.height_tree, ← tree, ← height] at fits
  rw [← height] at deep
  refine ⟨⟨word, leaf⟩, ⟨?_, fun kept => ⟨_, fits kept.1 kept.2⟩⟩, fits, ?_, deep⟩
  · intro accepted
    obtain ⟨result, ok⟩ := accepted
    have room : context.depth + 1 + innerPhrase.nesting ≤ maxNesting := by
      apply Nat.le_of_not_lt
      intro crowd
      obtain ⟨position, error, -⟩ := crowded crowd
      rw [ok] at error
      cases error
    refine ⟨room, Nat.le_of_not_lt ?_⟩
    intro tooDeep
    obtain ⟨position, op, error, -⟩ := deep room tooDeep
    rw [ok] at error
    cases error
  · intro crowd
    obtain ⟨position, error, least, greatest⟩ := crowded crowd
    exact ⟨position, error, (parseTree_nestingTooDeep error).1.1, least, greatest⟩

theorem substitution_middle_operand :
    parseTree (lex "2*12-5") = .ok (.operation .sub
      (.operation .mul (.literal 2 0) (.literal 12 2) 1) (.literal 5 5) 4) ∧
    DigitRun (lex "2*12-5") 2 [1, 2] ∧
    parseTree (lex "3-4") = .ok (.operation .sub (.literal 3 0) (.literal 4 2) 1) ∧
    withGroup (lex "2*12-5") 2 2 (lex "3-4") = lex "2*(3-4)-5" ∧
    parseTree (lex "2*(3-4)-5") = .ok (.operation .sub
      (.operation .mul (.literal 2 0) (.operation .sub (.literal 3 3) (.literal 4 5) 4) 1)
      (.literal 5 8) 7) := by
  let product : Phrase .term :=
    .joined (.operand (.literal [2] (by decide))) .mul rfl (.literal [1, 2] (by decide))
  let outer : Phrase .expression :=
    .joined (.operand product) .sub rfl (.operand (.literal [5] (by decide)) : Phrase .term)
  let three : Phrase .expression := .operand (.operand (.literal [3] (by decide)) : Phrase .term)
  let inner : Phrase .expression :=
    .joined three .sub rfl (.operand (.literal [4] (by decide)) : Phrase .term)
  have spelled : lex "2*12-5" = outer.tokens := by decide
  have spelledInner : lex "3-4" = inner.tokens := by decide
  have accepted : parseTree (lex "2*12-5") = .ok (.operation .sub
      (.operation .mul (.literal 2 0) (.literal 12 2) 1) (.literal 5 5) 4) := by
    rw [spelled, parseTree_tokens_eq_ok_iff]
    decide
  have acceptedInner :
      parseTree (lex "3-4") = .ok (.operation .sub (.literal 3 0) (.literal 4 2) 1) := by
    rw [spelledInner, parseTree_tokens_eq_ok_iff]
    decide
  have run : DigitRun (lex "2*12-5") 2 [1, 2] := by
    have ahead : (lex "2*12-5")[1]? = some (.operator .mul) := by decide
    have behind : (lex "2*12-5")[4]? = some (.operator .sub) := by decide
    refine ⟨by decide, ?_, ?_, ?_⟩
    · intro i digit found
      match i with
      | 0 | 1 =>
          cases found
          decide
      | _ + 2 => cases found
    · intro i digit next found
      cases next
      cases ahead.symm.trans found
    · intro digit found
      cases behind.symm.trans found
  have replaced : withGroup (lex "2*12-5") 2 2 (lex "3-4") = lex "2*(3-4)-5" := by decide
  obtain ⟨-, -, fits, -⟩ := substitution_exact accepted run acceptedInner
  have room : openWithGroup (lex "2*12-5") 2 (lex "3-4") ≤ maxNesting := by decide
  have result := fits room (by rw [Expr.depth_eq_height]; decide)
  have both : [(1 : UInt8), 2].length = 2 := rfl
  rw [both, replaced] at result
  exact ⟨accepted, run, acceptedInner, replaced, result⟩

end Arith
