import Arith.Proofs.Acceptance
import Arith.Proofs.Scanning

/-! Sequences and the texts that spell them.

The text of a sequence is read as the sequence, and the sequence of a text is spelled as the
text without the characters that are skipped. Two texts differ for the rest of the
calculation only if they differ in other than skipped characters.
-/

set_option autoImplicit false

namespace Arith

def spell (tokens : List Token) : String :=
  String.join (tokens.map Token.text)

def recognized (text : String) : String :=
  String.ofList (text.toList.filter (· ∈ alphabet))

theorem isDecimal_of_mem_lex {text : String} {token : Token} (member : token ∈ lex text) :
    token.IsDecimal := by
  obtain ⟨c, -, found⟩ := List.mem_filterMap.mp member
  exact (Token.ofChar?_eq_some found).1

theorem toList_spell {tokens : List Token} (decimal : ∀ token ∈ tokens, token.IsDecimal) :
    (spell tokens).toList = tokens.map Token.char := by
  induction tokens with
  | nil => rfl
  | cons token rest ih =>
      have behind := ih fun other member => decimal other (List.mem_cons_of_mem token member)
      rw [spell] at behind
      rw [spell, List.map_cons, String.join_cons, String.toList_append, behind,
        Token.toList_text (decimal token List.mem_cons_self)]
      rfl

theorem lex_spell {tokens : List Token} (decimal : ∀ token ∈ tokens, token.IsDecimal) :
    lex (spell tokens) = tokens := by
  rw [lex, toList_spell decimal, List.filterMap_map]
  calc
    tokens.filterMap (Token.ofChar? ∘ Token.char) = tokens.filterMap some :=
      List.filterMap_congr fun token member => Token.ofChar?_char (decimal token member)
    _ = tokens := List.filterMap_some

theorem map_char_filterMap (chars : List Char) :
    (chars.filterMap Token.ofChar?).map Token.char = chars.filter (· ∈ alphabet) := by
  induction chars with
  | nil => rfl
  | cons c rest ih =>
      cases found : Token.ofChar? c with
      | none =>
          have outside := (Token.ofChar?_eq_none_iff c).mp found
          rw [List.filterMap_cons_none found, List.filter_cons_of_neg (by simpa using outside), ih]
      | some token =>
          obtain ⟨decimal, rfl⟩ := Token.ofChar?_eq_some found
          have inside := Token.char_mem_alphabet decimal
          rw [List.filterMap_cons_some found, List.map_cons,
            List.filter_cons_of_pos (by simpa using inside), ih]

theorem spell_lex (text : String) : spell (lex text) = recognized text := by
  apply String.toList_injective
  rw [toList_spell fun _ => isDecimal_of_mem_lex, lex, map_char_filterMap, recognized,
    String.toList_ofList]

theorem lex_recognized (text : String) : lex (recognized text) = lex text := by
  rw [← spell_lex, lex_spell fun _ => isDecimal_of_mem_lex]

theorem lex_eq_iff (first second : String) :
    lex first = lex second ↔ recognized first = recognized second := by
  constructor
  · intro same
    rw [← spell_lex, same, spell_lex]
  · intro same
    rw [← lex_recognized, same, lex_recognized]

/-- Lexing and spelling are inverse to each other apart from skipped characters, and these
make no difference to what is parsed and calculated, wherever they stand. -/
theorem spelling_exact :
    (∀ scanner : Scanner, scanner.Characterwise → ∀ text,
      (lexPieces (scanner text)).1 = lex text) ∧
    (∀ text, spell (lex text) = recognized text ∧
      ∀ value, .digit value ∈ lex text → value.toNat ≤ 9) ∧
    (∀ tokens, (∀ value, .digit value ∈ tokens → value.toNat ≤ 9) →
      lex (spell tokens) = tokens) ∧
    (∀ first second, lex (first ++ second) = lex first ++ lex second) ∧
    (∀ first second, lex first = lex second ↔ recognized first = recognized second) ∧
    (∀ first second, recognized first = recognized second →
      parseTree (lex first) = parseTree (lex second) ∧
      parse (lex first) = parse (lex second) ∧
      calculate first = calculate second) ∧
    parseTree (lex "1 2") = .ok (.literal 12 0) := by
  refine ⟨?_, ?_, ?_, lex_append, lex_eq_iff, ?_, ?_⟩
  · intro scanner characterwise text
    rw [characterwise.lexPieces_eq]
  · intro text
    exact ⟨spell_lex text, fun value member => isDecimal_of_mem_lex member value rfl⟩
  · intro tokens decimal
    refine lex_spell ?_
    rintro token member value rfl
    exact decimal value member
  · intro first second same
    have sameTokens := (lex_eq_iff first second).mpr same
    rw [calculate, calculate, sameTokens]
    exact ⟨rfl, rfl, rfl⟩
  · let twelve : Phrase .expression :=
      .operand (.operand (.literal [1, 2] (by decide)) : Phrase .term)
    have spelled : lex "1 2" = twelve.tokens := by decide
    rw [spelled, parseTree_tokens_eq_ok_iff]
    decide

theorem spelling_interrupted_number :
    scanCharacters.Characterwise ∧
    (lexPieces (scanCharacters "(1é2)")).1 = lex "(1é2)" ∧
    (∀ value, .digit value ∈ [Token.openParen, .digit 1, .digit 2, .closeParen] →
      value.toNat ≤ 9) ∧
    lex (spell [.openParen, .digit 1, .digit 2, .closeParen]) =
      [.openParen, .digit 1, .digit 2, .closeParen] ∧
    recognized "(1é2)" = recognized "(12)" ∧
    parseTree (lex "(1é2)") = parseTree (lex "(12)") ∧
    calculate "(1é2)" = calculate "(12)" := by
  have each := spelling_exact.1 scanCharacters characterwise_scanCharacters "(1é2)"
  have decimal : ∀ value, .digit value ∈ [Token.openParen, .digit 1, .digit 2, .closeParen] →
      value.toNat ≤ 9 := by
    simp
  have same : recognized "(1é2)" = recognized "(12)" := by decide
  obtain ⟨trees, -, values⟩ := spelling_exact.2.2.2.2.2.1 _ _ same
  exact ⟨characterwise_scanCharacters, each, decimal, spelling_exact.2.2.1 _ decimal, same, trees,
    values⟩

end Arith
