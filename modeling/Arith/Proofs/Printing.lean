import Arith.Proofs.Decimal
import Arith.Proofs.Grammar
import Arith.Proofs.Positions

/-! Trees as texts with no more parentheses than the grammar asks for.

An operand stands in parentheses where it would otherwise be read apart: if it binds less
tightly than its parent, and on the right also if it binds as tightly. The text is that of
a phrase which has the tree, its positions apart, and no phrase with the tree has fewer
parentheses.
-/

set_option autoImplicit false

namespace Arith

namespace Operator

def strength : Operator → Nat
  | .add | .sub => 1
  | .mul | .div => 2

end Operator

namespace Expr

def bindsLess (parent : Operator) : Expr → Bool
  | .literal _ _ => false
  | .operation op _ _ _ => decide (op.strength < parent.strength)

def bindsNoMore (parent : Operator) : Expr → Bool
  | .literal _ _ => false
  | .operation op _ _ _ => decide (op.strength ≤ parent.strength)

def parenthesizedIf (needed : Bool) (text : String) : String :=
  if needed then "(" ++ text ++ ")" else text

/-- The tree as it is written between operators. Repetitions join from the left, so a right
operand of the same strength stands in parentheses while a left one does not. -/
def infixForm : Expr → String
  | .literal value _ => toString value.toInt
  | .operation op left right _ =>
    parenthesizedIf (left.bindsLess op) left.infixForm ++ op.symbol.toString ++
      parenthesizedIf (right.bindsNoMore op) right.infixForm

/-- Whether a phrase of the category may have the tree without parentheses around it. -/
def admittedBy (category : Category) : Expr → Bool
  | .literal _ _ => true
  | .operation op _ _ _ => category.admits op.isMultiplicative

def NonNegative : Expr → Prop
  | .literal value _ => 0 ≤ value.toInt
  | .operation _ left right _ => left.NonNegative ∧ right.NonNegative

instance decidableNonNegative : (expr : Expr) → Decidable expr.NonNegative
  | .literal value _ => inferInstanceAs (Decidable (0 ≤ value.toInt))
  | .operation _ left right _ =>
    have := decidableNonNegative left
    have := decidableNonNegative right
    inferInstanceAs (Decidable (left.NonNegative ∧ right.NonNegative))

end Expr

namespace Phrase

def ofFactor (only : Phrase .factor) : (category : Category) → Phrase category
  | .factor => only
  | .chain true => .operand only
  | .chain false => .operand (.operand only : Phrase .term)

/-- A repetition where a phrase of the category is due: in parentheses, unless the category
admits its operators. -/
def placed : {tight : Bool} → Phrase (.chain tight) → (category : Category) → Phrase category
  | true, phrase, .chain true => phrase
  | true, phrase, .chain false => .operand phrase
  | true, phrase, .factor => .group (.operand phrase)
  | false, phrase, .chain false => phrase
  | false, phrase, .chain true => .operand (.group phrase)
  | false, phrase, .factor => .group phrase

theorem tokens_ofFactor (only : Phrase .factor) (category : Category) :
    (only.ofFactor category).tokens = only.tokens := by
  cases category with
  | factor => rfl
  | chain tight => cases tight <;> rfl

theorem tree_ofFactor (only : Phrase .factor) (category : Category) (base : Nat) :
    (only.ofFactor category).tree base = only.tree base := by
  cases category with
  | factor => rfl
  | chain tight => cases tight <;> rfl

theorem tokens_placed {tight : Bool} (phrase : Phrase (.chain tight)) (category : Category) :
    (phrase.placed category).tokens =
      if category.admits tight then phrase.tokens
      else .openParen :: (phrase.tokens ++ [.closeParen]) := by
  cases category with
  | factor => cases tight <;> rfl
  | chain other => cases tight <;> cases other <;> rfl

theorem tree_placed {tight : Bool} (phrase : Phrase (.chain tight)) (category : Category)
    (base : Nat) :
    (phrase.placed category).tree base =
      phrase.tree (if category.admits tight then base else base + 1) := by
  cases category with
  | factor => cases tight <;> rfl
  | chain other => cases tight <;> cases other <;> rfl

end Phrase

namespace Expr

/-- The phrase of the category for a tree, with parentheses where an operation needs them. -/
def phraseAt : Expr → (category : Category) → Phrase category
  | .literal value _ =>
    (Phrase.literal (decimalDigits value.toInt.toNat) (decimalDigits_ne_nil _)).ofFactor
  | .operation op left right _ =>
    (Phrase.joined (left.phraseAt (.chain op.isMultiplicative)) op rfl
      (right.phraseAt (.operand op.isMultiplicative))).placed

/-- Whether a left operand stands in parentheses depends on the repetition that it is in. -/
theorem bindsLess_eq (parent : Operator) (expr : Expr) :
    expr.bindsLess parent = !expr.admittedBy (.chain parent.isMultiplicative) := by
  cases expr with
  | literal value position => rfl
  | operation op left right position => cases op <;> cases parent <;> rfl

theorem bindsNoMore_eq (parent : Operator) (expr : Expr) :
    expr.bindsNoMore parent = !expr.admittedBy (.operand parent.isMultiplicative) := by
  cases expr with
  | literal value position => rfl
  | operation op left right position => cases op <;> cases parent <;> rfl

theorem lex_parenthesizedIf (needed : Bool) (text : String) :
    lex (parenthesizedIf needed text) =
      if needed then .openParen :: (lex text ++ [.closeParen]) else lex text := by
  cases needed with
  | false => rfl
  | true =>
      simp only [parenthesizedIf, if_true, lex_append]
      rfl

theorem lex_symbol (op : Operator) : lex op.symbol.toString = [.operator op] := by
  cases op <;> decide

theorem toNat_toInt {value : Int64} (nonNegative : 0 ≤ value.toInt) :
    (value.toInt.toNat : Int) = value.toInt :=
  Int.toNat_of_nonneg nonNegative

/-- Where it stands by itself or in parentheses, the phrase for a tree derives its text. -/
theorem tokens_phraseAt {expr : Expr} (nonNegative : expr.NonNegative) (category : Category) :
    (expr.phraseAt category).tokens =
      lex (parenthesizedIf (!expr.admittedBy category) expr.infixForm) := by
  induction expr generalizing category with
  | literal value position =>
      have digits : toString value.toInt = toString value.toInt.toNat := by
        rw [← toNat_toInt nonNegative]
        rfl
      rw [phraseAt, Phrase.tokens_ofFactor, Phrase.tokens, ← lex_toString, ← digits]
      rfl
  | operation op left right position ihl ihr =>
      have text : lex (operation op left right position).infixForm =
          (Phrase.joined (left.phraseAt (.chain op.isMultiplicative)) op rfl
            (right.phraseAt (.operand op.isMultiplicative))).tokens := by
        rw [infixForm, lex_append, lex_append, lex_symbol, bindsLess_eq, bindsNoMore_eq,
          ← ihl nonNegative.1, ← ihr nonNegative.2, List.append_assoc, List.singleton_append,
          Phrase.tokens]
      rw [phraseAt, Phrase.tokens_placed, lex_parenthesizedIf, text, admittedBy]
      cases category.admits op.isMultiplicative with
      | true => rfl
      | false => rfl

theorem lex_infixForm {expr : Expr} (nonNegative : expr.NonNegative) :
    lex expr.infixForm = (expr.phraseAt .expression).tokens := by
  have admitted : expr.admittedBy .expression = true := by cases expr <;> rfl
  rw [tokens_phraseAt nonNegative, admitted]
  rfl

theorem tree_phraseAt {expr : Expr} (nonNegative : expr.NonNegative) (category : Category)
    (base : Nat) :
    ∃ again : Expr, (expr.phraseAt category).tree base = again.tree ∧ again.SameShape expr := by
  induction expr generalizing category base with
  | literal value position =>
      refine ⟨.literal value base, ?_, .literal value base position⟩
      rw [phraseAt, Phrase.tree_ofFactor, Phrase.tree, digitsValue_decimalDigits,
        toNat_toInt nonNegative]
      rfl
  | operation op left right position ihl ihr =>
      rw [phraseAt, Phrase.tree_placed, Phrase.tree]
      obtain ⟨leftAgain, leftTree, leftSame⟩ := ihl nonNegative.1 _ _
      obtain ⟨rightAgain, rightTree, rightSame⟩ := ihr nonNegative.2 _ _
      rw [leftTree, rightTree]
      exact ⟨.operation op leftAgain rightAgain _, rfl, .operation leftSame rightSame op _ _⟩

end Expr

namespace Phrase

variable {category : Category}

/-- No more parentheses, and no more of them open at once. -/
structure Sparser {category other : Category} (first : Phrase category)
    (second : Phrase other) : Prop where
  groups : first.groups ≤ second.groups
  nesting : first.nesting ≤ second.nesting

namespace Sparser

variable {one two three : Category} {first : Phrase one} {second : Phrase two}
  {third : Phrase three}

theorem trans (less : first.Sparser second) (further : second.Sparser third) :
    first.Sparser third :=
  ⟨Nat.le_trans less.groups further.groups, Nat.le_trans less.nesting further.nesting⟩

theorem group {inner other : Phrase .expression} (less : inner.Sparser other) :
    (Phrase.group inner).Sparser (Phrase.group other) :=
  ⟨Nat.succ_le_succ less.groups, Nat.succ_le_succ less.nesting⟩

theorem operand {tight : Bool} {other : Phrase (.operand tight)} (less : first.Sparser other) :
    first.Sparser (Phrase.operand other : Phrase (.chain tight)) :=
  ⟨less.groups, less.nesting⟩

theorem joined {tight : Bool} {left otherLeft : Phrase (.chain tight)} {op : Operator}
    {accepted : op.isMultiplicative = tight} {right otherRight : Phrase (.operand tight)}
    (less : left.Sparser otherLeft) (lessRight : right.Sparser otherRight) :
    (Phrase.joined left op accepted right).Sparser
      (Phrase.joined otherLeft op accepted otherRight) where
  groups := Nat.add_le_add less.groups lessRight.groups
  nesting := by
    have bound := less.nesting
    have boundRight := lessRight.nesting
    simp only [Phrase.nesting]
    omega

/-- Parentheses around the whole are the most that a factor needs. -/
theorem placed_factor {tight : Bool} (phrase : Phrase (.chain tight)) :
    (phrase.placed .factor).Sparser (.group (phrase.placed .expression)) := by
  cases tight with
  | true => exact ⟨Nat.le_refl _, Nat.le_refl _⟩
  | false => exact ⟨Nat.le_refl _, Nat.le_refl _⟩

/-- What stands in an operand without parentheses may do so in the repetition as well. -/
theorem placed_chain {tight : Bool} (phrase : Phrase (.chain tight)) (outer : Bool) :
    (phrase.placed (.chain outer)).Sparser (phrase.placed (.operand outer)) := by
  cases tight <;> cases outer
  · exact ⟨Nat.le_succ _, Nat.le_succ _⟩
  · exact ⟨Nat.le_refl _, Nat.le_refl _⟩
  · exact ⟨Nat.le_refl _, Nat.le_refl _⟩
  · exact ⟨Nat.le_succ _, Nat.le_succ _⟩

theorem placed_self {tight : Bool} (phrase : Phrase (.chain tight)) :
    (phrase.placed (.chain tight)).Sparser phrase := by
  cases tight with
  | true => exact ⟨Nat.le_refl _, Nat.le_refl _⟩
  | false => exact ⟨Nat.le_refl _, Nat.le_refl _⟩

end Sparser

theorem nonNegative (phrase : Phrase category) {base : Nat} {expr : Expr}
    (same : phrase.tree base = expr.tree) : expr.NonNegative := by
  induction phrase generalizing base expr with
  | literal digits nonempty =>
      obtain ⟨word, rfl, value⟩ := Expr.eq_literal_of_tree same
      rw [Expr.NonNegative, value]
      exact Int.natCast_nonneg _
  | group inner ih => exact ih same
  | operand only ih => exact ih same
  | joined left own accepted right ihl ihr =>
      obtain ⟨leftExpr, rightExpr, rfl, inLeft, inRight⟩ := Expr.eq_operation_of_tree same
      exact ⟨ihl inLeft, ihr inRight⟩

end Phrase

namespace Expr

theorem phraseAt_factor_sparser (expr : Expr) :
    (expr.phraseAt .factor).Sparser (.group (expr.phraseAt .expression)) := by
  cases expr with
  | literal value position => exact ⟨Nat.zero_le _, Nat.zero_le _⟩
  | operation op left right position =>
      simp only [phraseAt]
      exact .placed_factor _

theorem phraseAt_chain_sparser (expr : Expr) (tight : Bool) :
    (expr.phraseAt (.chain tight)).Sparser (expr.phraseAt (.operand tight)) := by
  cases expr with
  | literal value position =>
      cases tight with
      | true => exact ⟨Nat.le_refl _, Nat.le_refl _⟩
      | false => exact ⟨Nat.le_refl _, Nat.le_refl _⟩
  | operation op left right position =>
      simp only [phraseAt]
      exact .placed_chain _ tight

/-- No phrase for the tree has fewer parentheses: it puts them at least where an operation
cannot stand without. -/
theorem phraseAt_sparser {category : Category} (phrase : Phrase category) {base : Nat}
    {expr : Expr} (same : phrase.tree base = expr.tree) :
    (expr.phraseAt category).Sparser phrase := by
  induction phrase generalizing base expr with
  | literal digits nonempty =>
      obtain ⟨word, rfl, -⟩ := Expr.eq_literal_of_tree same
      exact ⟨Nat.le_refl _, Nat.le_refl _⟩
  | group inner ih =>
      exact expr.phraseAt_factor_sparser.trans (ih same).group
  | @operand tight only ih =>
      exact ((expr.phraseAt_chain_sparser tight).trans (ih same)).operand
  | joined left own accepted right ihl ihr =>
      obtain ⟨leftExpr, rightExpr, rfl, inLeft, inRight⟩ := eq_operation_of_tree same
      subst accepted
      rw [phraseAt]
      exact (Phrase.Sparser.placed_self _).trans (.joined (ihl inLeft) (ihr inRight))

end Expr

end Arith
