import Arith.Proofs.Decimal
import Arith.Proofs.Inorder
import Arith.Proofs.Viable

/-! Sequences recovered from their trees.

A tree has the operators and the values of the literals of its sequence, each with its
position. A number without leading zeros has one spelling, so the tree also has the
digits. What remains are parentheses. Of these an expression leaves no choice: where an
operand is due the parenthesis opens, and elsewhere it closes the one that is open.
-/

set_option autoImplicit false

namespace Arith

def Token.isParen : Token → Bool
  | .openParen | .closeParen => true
  | .digit _ | .operator _ => false

/-- What comes behind these tokens of an expression if no digit and no operator does. -/
def parenAfter? (before : List Token) : Option Token :=
  if AwaitsOperand before then some .openParen
  else if unclosed before = [] then none
  else some .closeParen

theorem InGrammar.paren_eq {tokens : List Token} (whole : InGrammar tokens) {i : Nat}
    (unmarked : ∀ token : Token, token.isParen = false → tokens[i]? ≠ some token) :
    tokens[i]? = parenAfter? (tokens.take i) := by
  obtain ⟨coherent, complete, closed⟩ := (inGrammar_iff tokens).mp whole
  cases here : tokens[i]? with
  | none =>
      rw [List.take_of_length_le (List.getElem?_eq_none_iff.mp here), parenAfter?,
        if_neg complete, if_pos closed]
  | some token =>
      have follows := coherent i token here
      cases token with
      | openParen => exact (if_pos follows).symm
      | closeParen => rw [parenAfter?, if_neg follows.1, if_neg follows.2]
      | digit digit => exact absurd here (unmarked (.digit digit) rfl)
      | operator op => exact absurd here (unmarked (.operator op) rfl)

theorem InGrammar.eq_of_marks {first second : List Token} (wholeFirst : InGrammar first)
    (wholeSecond : InGrammar second)
    (same : ∀ (i : Nat) (token : Token), token.isParen = false →
      (first[i]? = some token ↔ second[i]? = some token)) :
    first = second := by
  have agree : ∀ i, first.take i = second.take i := by
    intro i
    induction i with
    | zero => rfl
    | succ i ih =>
        suffices here : first[i]? = second[i]? by
          rw [List.take_add_one, List.take_add_one, ih, here]
        by_cases marked : ∃ token, token.isParen = false ∧ first[i]? = some token
        · obtain ⟨token, mark, found⟩ := marked
          rw [found, (same i token mark).mp found]
        · -- Neither has a mark here, so what comes is told by what both begin with.
          have unmarked : ∀ token : Token, token.isParen = false → first[i]? ≠ some token :=
            fun token mark found => marked ⟨token, mark, found⟩
          have behind := wholeSecond.paren_eq fun token mark found =>
            unmarked token mark ((same i token mark).mpr found)
          rw [wholeFirst.paren_eq unmarked, behind, ih]
  have whole := agree (max first.length second.length)
  rwa [List.take_of_length_le (Nat.le_max_left _ _),
    List.take_of_length_le (Nat.le_max_right _ _)] at whole

/-- The digits are decimal digits, and no longer run of them starts with a zero. -/
structure Canonical (tokens : List Token) : Prop where
  decimal : ∀ digit, .digit digit ∈ tokens → digit.toNat ≤ 9
  noLeadingZero : ∀ start digits, DigitRun tokens start digits → 1 < digits.length →
    digits.head? ≠ some 0

theorem Canonical.of_nonzero {tokens : List Token}
    (nonzero : (tokens.filterMap Token.digit?).all fun digit => 0 < digit && digit ≤ 9) :
    Canonical tokens := by
  have each : ∀ digit, .digit digit ∈ tokens → 0 < digit ∧ digit ≤ 9 := by
    intro digit member
    have here := List.all_eq_true.mp nonzero digit
      (List.mem_filterMap.mpr ⟨.digit digit, member, rfl⟩)
    rwa [Bool.and_eq_true, decide_eq_true_eq, decide_eq_true_eq] at here
  refine ⟨fun digit member => (each digit member).2, ?_⟩
  intro start digits run _ zero
  rw [List.head?_eq_getElem?] at zero
  have first := each 0 (List.mem_of_getElem? (run.inside 0 0 zero))
  exact absurd first.1 (by decide)

theorem Canonical.digits_eq {tokens : List Token} (canonical : Canonical tokens) {start : Nat}
    {digits : List UInt8} (run : DigitRun tokens start digits) :
    digits = decimalDigits (digitsValue digits) := by
  refine eq_decimalDigits run.nonempty ?_ (canonical.noLeadingZero start digits run)
  intro digit member
  obtain ⟨i, found⟩ := List.mem_iff_getElem?.mp member
  exact canonical.decimal digit (List.mem_of_getElem? (run.inside i digit found))

theorem Phrase.mark_of_tree {first second : Phrase .expression} {expr : Expr}
    (sameFirst : first.tree 0 = expr.tree) (sameSecond : second.tree 0 = expr.tree)
    (canonicalFirst : Canonical first.tokens) (canonicalSecond : Canonical second.tokens)
    {i : Nat} {token : Token} (mark : token.isParen = false)
    (found : first.tokens[i]? = some token) : second.tokens[i]? = some token := by
  cases token with
  | openParen => cases mark
  | closeParen => cases mark
  | operator op =>
      have member := ((first.inSourceOrder sameFirst).operations op i).mpr found
      exact ((second.inSourceOrder sameSecond).operations op i).mp member
  | digit digit =>
      obtain ⟨start, digits, run, least, bound⟩ := first.exists_digitRun found
      have member := (first.inorder_literals sameFirst _ start).mpr ⟨digits, run, rfl⟩
      obtain ⟨others, otherRun, value⟩ := (second.inorder_literals sameSecond _ start).mp member
      -- Runs of one value are spelled alike.
      have spelled : others = digits := by
        rw [canonicalSecond.digits_eq otherRun, ← Int.ofNat_inj.mp value,
          ← canonicalFirst.digits_eq run]
      subst spelled
      obtain ⟨offset, rfl⟩ := Nat.exists_eq_add_of_le least
      have inside : offset < others.length := by omega
      rw [← found, run.at_index inside, otherRun.at_index inside]

theorem parseTree_ok_inj {first second : List Token} {expr : Expr}
    (canonicalFirst : Canonical first) (canonicalSecond : Canonical second)
    (acceptedFirst : parseTree first = .ok expr) (acceptedSecond : parseTree second = .ok expr) :
    first = second := by
  obtain ⟨phraseFirst, rfl⟩ := parseTree_ok acceptedFirst
  obtain ⟨phraseSecond, rfl⟩ := parseTree_ok acceptedSecond
  have sameFirst := ((parseTree_eq_ok_iff_phrase phraseFirst expr).mp acceptedFirst).2
  have sameSecond := ((parseTree_eq_ok_iff_phrase phraseSecond expr).mp acceptedSecond).2
  refine InGrammar.eq_of_marks ⟨phraseFirst, rfl⟩ ⟨phraseSecond, rfl⟩ ?_
  intro i token mark
  constructor
  · exact Phrase.mark_of_tree sameFirst sameSecond canonicalFirst canonicalSecond mark
  · exact Phrase.mark_of_tree sameSecond sameFirst canonicalSecond canonicalFirst mark

/-- Canonical sequences with one tree, positions included, are equal. A leading zero of the
last number changes no position and no value. -/
theorem source_exact :
    (∀ first second expr, Canonical first → Canonical second →
      parseTree first = .ok expr → parseTree second = .ok expr → first = second) ∧
    parseTree (lex "1+7") = .ok (.operation .add (.literal 1 0) (.literal 7 2) 1) ∧
    parseTree (lex "1+07") = .ok (.operation .add (.literal 1 0) (.literal 7 2) 1) ∧
    lex "1+7" ≠ lex "1+07" := by
  let sum (digits : List UInt8) (nonempty : digits ≠ []) : Phrase .expression :=
    .joined (.operand (.operand (.literal [1] (by decide)))) .add rfl
      (.operand (.literal digits nonempty))
  have spelled : lex "1+7" = (sum [7] (by decide)).tokens := by decide
  have spelledLonger : lex "1+07" = (sum [0, 7] (by decide)).tokens := by decide
  refine ⟨?_, ?_, ?_, by decide⟩
  · intro first second expr canonicalFirst canonicalSecond acceptedFirst acceptedSecond
    exact parseTree_ok_inj canonicalFirst canonicalSecond acceptedFirst acceptedSecond
  · rw [spelled, parseTree_tokens_eq_ok_iff]
    decide
  · rw [spelledLonger, parseTree_tokens_eq_ok_iff]
    decide

theorem source_spaced_product :
    Canonical (lex "12*(3)") ∧ Canonical (lex "1 2 * (3)") ∧
    parseTree (lex "12*(3)") = .ok (.operation .mul (.literal 12 0) (.literal 3 4) 2) ∧
    parseTree (lex "1 2 * (3)") = .ok (.operation .mul (.literal 12 0) (.literal 3 4) 2) ∧
    lex "12*(3)" = lex "1 2 * (3)" := by
  let product : Phrase .term :=
    .joined (.operand (.literal [1, 2] (by decide))) .mul rfl
      (.group (.operand (.operand (.literal [3] (by decide)))))
  have spelled : lex "12*(3)" = (Phrase.operand product : Phrase .expression).tokens := by decide
  have spelledSpaced : lex "1 2 * (3)" = (Phrase.operand product : Phrase .expression).tokens := by
    decide
  have canonical : Canonical (lex "12*(3)") := .of_nonzero (by decide)
  have canonicalSpaced : Canonical (lex "1 2 * (3)") := .of_nonzero (by decide)
  have accepted : parseTree (lex "12*(3)") =
      .ok (.operation .mul (.literal 12 0) (.literal 3 4) 2) := by
    rw [spelled, parseTree_tokens_eq_ok_iff]
    decide
  have acceptedSpaced : parseTree (lex "1 2 * (3)") =
      .ok (.operation .mul (.literal 12 0) (.literal 3 4) 2) := by
    rw [spelledSpaced, parseTree_tokens_eq_ok_iff]
    decide
  exact ⟨canonical, canonicalSpaced, accepted, acceptedSpaced,
    source_exact.1 _ _ _ canonical canonicalSpaced accepted acceptedSpaced⟩

end Arith
