import Arith.Proofs.Scanning
import Arith.Trace
import Mathlib.Algebra.GroupWithZero.Nat

/-! A text from its tokens and its skips.

The skips of a text are the characters outside the alphabet with the bytes at which they
stand. Tokens have no place of their own, but each is one byte long: between two skips
there are as many tokens as bytes, and so the text can be put together again.
-/

set_option autoImplicit false

namespace Arith

theorem utf8ByteSize_ofList (chars : List Char) :
    (String.ofList chars).utf8ByteSize = (chars.map Char.utf8Size).sum := by
  induction chars with
  | nil => rfl
  | cons c rest ih =>
      rw [← List.singleton_append, String.ofList_append, String.utf8ByteSize_append,
        ← String.singleton_eq_ofList, String.utf8ByteSize_singleton, ih]
      rfl

theorem utf8ByteSize_eq_sum (text : String) :
    text.utf8ByteSize = (text.toList.map Char.utf8Size).sum := by
  rw [← utf8ByteSize_ofList, String.ofList_toList]

theorem utf8Size_of_mem_alphabet {c : Char} (member : c ∈ alphabet) : c.utf8Size = 1 := by
  have each : (alphabet.all fun c => c.utf8Size == 1) = true := by decide
  exact eq_of_beq (List.all_eq_true.mp each c member)

theorem skipsFrom_cons_token {c : Char} {token : Token} (found : Token.ofChar? c = some token)
    (offset : Nat) (rest : List Char) :
    skipsFrom offset (c :: rest) = skipsFrom (offset + 1) rest := by
  obtain ⟨decimal, rfl⟩ := Token.ofChar?_eq_some found
  rw [skipsFrom, found, utf8Size_of_mem_alphabet (Token.char_mem_alphabet decimal)]
  rfl

theorem skipsFrom_cons_skip {c : Char} (skipped : Token.ofChar? c = none) (offset : Nat)
    (rest : List Char) :
    skipsFrom offset (c :: rest) = ⟨c, offset⟩ :: skipsFrom (offset + c.utf8Size) rest := by
  rw [skipsFrom, skipped]
  rfl

theorem mem_skipsFrom_cons (skip : Skip) (offset : Nat) (c : Char) (rest : List Char) :
    skip ∈ skipsFrom offset (c :: rest) ↔
      c ∉ alphabet ∧ skip = ⟨c, offset⟩ ∨ skip ∈ skipsFrom (offset + c.utf8Size) rest := by
  rw [← Token.ofChar?_eq_none_iff]
  cases found : Token.ofChar? c with
  | none => simp [skipsFrom, found]
  | some token => simp [skipsFrom, found]

theorem mem_skipsFrom_iff (skip : Skip) (offset : Nat) (chars : List Char) :
    skip ∈ skipsFrom offset chars ↔ skip.char ∉ alphabet ∧ ∃ before after,
      chars = before ++ skip.char :: after ∧
        skip.offset = offset + (before.map Char.utf8Size).sum := by
  induction chars generalizing offset with
  | nil => simp [skipsFrom]
  | cons c rest ih =>
      rw [mem_skipsFrom_cons, ih]
      constructor
      · rintro (⟨outside, rfl⟩ | ⟨outside, before, after, rfl, place⟩)
        · exact ⟨outside, [], rest, rfl, rfl⟩
        · refine ⟨outside, c :: before, after, rfl, ?_⟩
          rw [place, List.map_cons, List.sum_cons, Nat.add_assoc]
      · rintro ⟨outside, before, after, split, place⟩
        cases before with
        | nil =>
            obtain ⟨rfl, rfl⟩ := List.cons.inj split
            exact .inl ⟨outside, by rw [← place.trans (Nat.add_zero offset)]⟩
        | cons first before =>
            obtain ⟨rfl, rfl⟩ := List.cons.inj split
            refine .inr ⟨outside, before, after, rfl, ?_⟩
            rw [place, List.map_cons, List.sum_cons, Nat.add_assoc]

theorem le_offset_of_mem_skipsFrom {skip : Skip} {offset : Nat} {chars : List Char}
    (member : skip ∈ skipsFrom offset chars) : offset ≤ skip.offset := by
  obtain ⟨-, before, after, -, place⟩ := (mem_skipsFrom_iff skip offset chars).mp member
  omega

theorem skipsFrom_increasing (offset : Nat) (chars : List Char) :
    (skipsFrom offset chars).Pairwise fun first second => first.offset < second.offset := by
  induction chars generalizing offset with
  | nil => exact .nil
  | cons c rest ih =>
      cases found : Token.ofChar? c with
      | some token =>
          rw [skipsFrom_cons_token found]
          exact ih _
      | none =>
          rw [skipsFrom_cons_skip found]
          refine .cons ?_ (ih _)
          intro skip member
          have later := le_offset_of_mem_skipsFrom member
          have pos := c.utf8Size_pos
          simp only
          omega

theorem length_tokens_add_length_skips (offset : Nat) (chars : List Char) :
    (chars.filterMap Token.ofChar?).length + (skipsFrom offset chars).length = chars.length := by
  induction chars generalizing offset with
  | nil => rfl
  | cons c rest ih =>
      cases found : Token.ofChar? c with
      | some token =>
          rw [skipsFrom_cons_token found, List.filterMap_cons_some found]
          simp only [List.length_cons, ← ih (offset + 1)]
          omega
      | none =>
          rw [skipsFrom_cons_skip found, List.filterMap_cons_none found]
          simp only [List.length_cons, ← ih (offset + c.utf8Size)]
          omega

/-- A token stands for one byte. -/
theorem sum_utf8Size (offset : Nat) (chars : List Char) :
    (chars.map Char.utf8Size).sum = (chars.filterMap Token.ofChar?).length +
      ((skipsFrom offset chars).map fun skip => skip.char.utf8Size).sum := by
  induction chars generalizing offset with
  | nil => rfl
  | cons c rest ih =>
      cases found : Token.ofChar? c with
      | some token =>
          obtain ⟨decimal, rfl⟩ := Token.ofChar?_eq_some found
          have one := utf8Size_of_mem_alphabet (Token.char_mem_alphabet decimal)
          rw [skipsFrom_cons_token found, List.filterMap_cons_some found]
          simp only [List.map_cons, List.sum_cons, List.length_cons, one, ih (offset + 1)]
          omega
      | none =>
          rw [skipsFrom_cons_skip found, List.filterMap_cons_none found]
          simp only [List.map_cons, List.sum_cons, ih (offset + c.utf8Size)]
          omega

/-- Puts tokens and skips in order: a skip where its byte is reached, a token elsewhere. -/
def weave : (offset : Nat) → List Token → List Skip → List Char
  | _, tokens, [] => tokens.map Token.char
  | offset, tokens, skip :: skips =>
    if skip.offset = offset then skip.char :: weave (offset + skip.char.utf8Size) tokens skips
    else
      match tokens with
      | [] => []
      | token :: tokens => token.char :: weave (offset + 1) tokens (skip :: skips)
termination_by _ tokens skips => tokens.length + skips.length

def restore (tokens : List Token) (skips : List Skip) : String :=
  String.ofList (weave 0 tokens skips)

theorem weave_cons_skip (offset : Nat) (tokens : List Token) (c : Char) (skips : List Skip) :
    weave offset tokens (⟨c, offset⟩ :: skips) = c :: weave (offset + c.utf8Size) tokens skips := by
  cases tokens with
  | nil => rw [weave, if_pos rfl]
  | cons token tokens => rw [weave, if_pos rfl]

theorem weave_cons_token (offset : Nat) (token : Token) (tokens : List Token)
    {skips : List Skip} (later : ∀ skip ∈ skips, offset < skip.offset) :
    weave offset (token :: tokens) skips = token.char :: weave (offset + 1) tokens skips := by
  cases skips with
  | nil => simp only [weave, List.map_cons]
  | cons skip skips =>
      have apart := Nat.ne_of_gt (later skip List.mem_cons_self)
      rw [weave, if_neg apart]

theorem weave_lexed (offset : Nat) (chars : List Char) :
    weave offset (chars.filterMap Token.ofChar?) (skipsFrom offset chars) = chars := by
  induction chars generalizing offset with
  | nil => simp only [List.filterMap_nil, skipsFrom, weave, List.map_nil]
  | cons c rest ih =>
      cases found : Token.ofChar? c with
      | some token =>
          obtain ⟨-, rfl⟩ := Token.ofChar?_eq_some found
          -- no skip starts at this byte, since those behind a token start after it
          rw [skipsFrom_cons_token found, List.filterMap_cons_some found, weave_cons_token, ih]
          exact fun skip member => le_offset_of_mem_skipsFrom member
      | none =>
          rw [skipsFrom_cons_skip found, List.filterMap_cons_none found, weave_cons_skip, ih]

theorem restore_lex_skips (text : String) : restore (lex text) (skips text) = text := by
  rw [restore, lex, skips_eq, weave_lexed, String.ofList_toList]

theorem mem_skips_iff (text : String) (skip : Skip) :
    skip ∈ skips text ↔ skip.char ∉ alphabet ∧ ∃ before after : String,
      text = before ++ skip.char.toString ++ after ∧ skip.offset = before.utf8ByteSize := by
  rw [skips_eq, mem_skipsFrom_iff]
  refine and_congr_right fun _ => ⟨?_, ?_⟩
  · rintro ⟨before, after, split, place⟩
    refine ⟨String.ofList before, String.ofList after, ?_, ?_⟩
    · apply String.toList_injective
      simp [split]
    · rw [utf8ByteSize_ofList, place, Nat.zero_add]
  · rintro ⟨before, after, rfl, place⟩
    refine ⟨before.toList, after.toList, ?_, ?_⟩
    · simp
    · rw [place, utf8ByteSize_eq_sum, Nat.zero_add]

/-- Tokens and skips account for every character of a text. Each skip names a character
outside the alphabet and its byte, and the text can be restored from both lists. -/
theorem skipping_exact :
    (∀ scanner : Scanner, scanner.Characterwise → ∀ text, lexPieces (scanner text) =
      (lex text, (skips text).map fun skip => (skip.char.toString, skip.offset))) ∧
    (∀ text,
      ((skips text).Pairwise fun first second => first.offset < second.offset) ∧
      (∀ skip, skip ∈ skips text ↔ skip.char ∉ alphabet ∧ ∃ before after : String,
        text = before ++ skip.char.toString ++ after ∧ skip.offset = before.utf8ByteSize) ∧
      (lex text).length + (skips text).length = text.length ∧
      lexingRecords text = (skips text).map .skipped ++
        [.lexed (lex text).length (text.toList.map Char.utf8Size).sum] ∧
      (text.toList.map Char.utf8Size).sum =
        (lex text).length + ((skips text).map fun skip => skip.char.utf8Size).sum ∧
      restore (lex text) (skips text) = text) ∧
    ∀ first second, lex first = lex second → skips first = skips second → first = second := by
  refine ⟨fun _ characterwise => characterwise.lexPieces_eq, fun text => ⟨?_, ?_, ?_, ?_, ?_,
    restore_lex_skips text⟩, ?_⟩
  · rw [skips_eq]
    exact skipsFrom_increasing 0 text.toList
  · exact mem_skips_iff text
  · rw [skips_eq, ← String.length_toList]
    exact length_tokens_add_length_skips 0 text.toList
  · rw [lexingRecords, utf8ByteSize_eq_sum]
  · rw [skips_eq]
    exact sum_utf8Size 0 text.toList
  · intro first second sameTokens sameSkips
    rw [← restore_lex_skips first, sameTokens, sameSkips, restore_lex_skips]

theorem skipping_wide_characters :
    scanCharacters.Characterwise ∧
    lexPieces (scanCharacters "1éé+😀2") =
      (lex "1éé+😀2", [("é", 1), ("é", 3), ("😀", 6)]) ∧
    lex "1éé+😀2" = lex ("1éé+" ++ "😀2") ∧ skips "1éé+😀2" = skips ("1éé+" ++ "😀2") ∧
    "1éé+😀2" = "1éé+" ++ "😀2" := by
  have found : skips "1éé+😀2" = [⟨'é', 1⟩, ⟨'é', 3⟩, ⟨'😀', 6⟩] := by decide
  have scanned := skipping_exact.1 scanCharacters characterwise_scanCharacters "1éé+😀2"
  rw [found] at scanned
  have sameTokens : lex "1éé+😀2" = lex ("1éé+" ++ "😀2") := by decide
  have sameSkips : skips "1éé+😀2" = skips ("1éé+" ++ "😀2") := by decide
  exact ⟨characterwise_scanCharacters, scanned, sameTokens, sameSkips,
    skipping_exact.2.2 _ _ sameTokens sameSkips⟩

end Arith
