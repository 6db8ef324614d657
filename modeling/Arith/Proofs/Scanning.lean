import Arith.Proofs.Alphabet

/-! Lexing over a scanner.

A scanner cuts a text into pieces and names the pattern that a piece matches. Lexing makes
tokens of those that match one and reports the others with the byte at which they start.
Nothing is known of the scanner but that its pieces are the characters of the text: then
the tokens and the reports are those of `lex` and `skips`.
-/

set_option autoImplicit false

namespace Arith

inductive Pattern where
  | openParen
  | closeParen
  | digit
  | operator (op : Operator)
  deriving DecidableEq, Repr

def Pattern.matchesChar : Pattern → Char → Bool
  | .openParen, c => c = '('
  | .closeParen, c => c = ')'
  | .digit, c => c.isDigit
  | .operator op, c => c = op.symbol

structure Piece where
  pattern? : Option Pattern
  slice : String
  start : Nat

abbrev Scanner := String → List Piece

def digitValue? (slice : String) : Option UInt8 :=
  match slice.toList with
  | [c] => if c.isDigit then some (c.toNat - '0'.toNat).toUInt8 else none
  | _ => none

def Piece.token? (piece : Piece) : Option Token :=
  match piece.pattern? with
  | some .openParen => some .openParen
  | some .closeParen => some .closeParen
  | some .digit => (digitValue? piece.slice).map .digit
  | some (.operator op) => some (.operator op)
  | none => none

def lexPieces : List Piece → List Token × List (String × Nat)
  | [] => ([], [])
  | piece :: pieces =>
    match piece.token?, lexPieces pieces with
    | some token, (tokens, skipped) => (token :: tokens, skipped)
    | none, (tokens, skipped) => (tokens, (piece.slice, piece.start) :: skipped)

inductive PieceEach : Nat → List Char → List Piece → Prop where
  | nil (offset : Nat) : PieceEach offset [] []
  | cons {offset : Nat} {c : Char} {chars : List Char} {pattern? : Option Pattern}
      {pieces : List Piece}
      (named : ∀ pattern, pattern? = some pattern ↔ pattern.matchesChar c = true)
      (behind : PieceEach (offset + c.utf8Size) chars pieces) :
      PieceEach offset (c :: chars) (⟨pattern?, c.toString, offset⟩ :: pieces)

/-- The scanner takes one character at a time. -/
def Scanner.Characterwise (scanner : Scanner) : Prop :=
  ∀ text : String, PieceEach 0 text.toList (scanner text)

def Token.pattern : Token → Pattern
  | .openParen => .openParen
  | .closeParen => .closeParen
  | .digit _ => .digit
  | .operator op => .operator op

theorem Token.matchesChar_pattern {token : Token} (decimal : token.IsDecimal) :
    token.pattern.matchesChar token.char = true := by
  cases token with
  | openParen => rfl
  | closeParen => rfl
  | operator op => exact decide_eq_true rfl
  | digit value =>
      have below : value.toNat < 10 := Nat.lt_succ_of_le (decimal value rfl)
      exact Nat.isDigit_digitChar.trans (decide_eq_true below)

/-- Each character matches one pattern at most, that of its token. -/
theorem Pattern.matchesChar_iff (pattern : Pattern) (c : Char) :
    pattern.matchesChar c = true ↔ (Token.ofChar? c).map Token.pattern = some pattern := by
  constructor
  · intro matched
    cases pattern with
    | openParen => rw [of_decide_eq_true matched]; rfl
    | closeParen => rw [of_decide_eq_true matched]; rfl
    | digit => rw [Token.ofChar?_of_isDigit matched]; rfl
    | operator op => rw [of_decide_eq_true matched]; cases op <;> rfl
  · intro named
    obtain ⟨token, found, rfl⟩ := Option.map_eq_some_iff.mp named
    obtain ⟨decimal, rfl⟩ := Token.ofChar?_eq_some found
    exact Token.matchesChar_pattern decimal

theorem digitValue?_digitChar {value : UInt8} (decimal : value.toNat ≤ 9) :
    digitValue? value.toNat.digitChar.toString = some value := by
  have digit : value.toNat.digitChar.isDigit = true :=
    Nat.isDigit_digitChar.trans (decide_eq_true (Nat.lt_succ_of_le decimal))
  have spelled : value.toNat.digitChar.toString.toList = [value.toNat.digitChar] :=
    String.toList_singleton _
  simp only [digitValue?, spelled, if_pos digit]
  exact congrArg some (digitOfChar_digitChar decimal)

theorem Piece.token?_eq {pattern? : Option Pattern} {c : Char}
    (named : ∀ pattern, pattern? = some pattern ↔ pattern.matchesChar c = true) (start : Nat) :
    Piece.token? ⟨pattern?, c.toString, start⟩ = Token.ofChar? c := by
  have same : pattern? = (Token.ofChar? c).map Token.pattern :=
    Option.ext fun pattern => (named pattern).trans (pattern.matchesChar_iff c)
  subst same
  cases found : Token.ofChar? c with
  | none => rfl
  | some token =>
      obtain ⟨decimal, rfl⟩ := Token.ofChar?_eq_some found
      cases token with
      | openParen => rfl
      | closeParen => rfl
      | operator op => rfl
      | digit value =>
          exact congrArg (Option.map Token.digit) (digitValue?_digitChar (decimal value rfl))

theorem lexPieces_eq {offset : Nat} {chars : List Char} {pieces : List Piece}
    (each : PieceEach offset chars pieces) :
    lexPieces pieces = (chars.filterMap Token.ofChar?,
      (skipsFrom offset chars).map fun skip => (skip.char.toString, skip.offset)) := by
  induction each with
  | nil offset => rfl
  | @cons offset c chars pattern? pieces named behind ih =>
      rw [lexPieces, Piece.token?_eq named, ih, List.filterMap_cons, skipsFrom]
      cases Token.ofChar? c with
      | none => rfl
      | some token => rfl

theorem Scanner.Characterwise.lexPieces_eq {scanner : Scanner}
    (characterwise : scanner.Characterwise) (text : String) :
    lexPieces (scanner text) =
      (lex text, (skips text).map fun skip => (skip.char.toString, skip.offset)) := by
  rw [skips_eq, Arith.lexPieces_eq (characterwise text)]
  rfl

def scanFrom (offset : Nat) : List Char → List Piece
  | [] => []
  | c :: chars =>
    ⟨(Token.ofChar? c).map Token.pattern, c.toString, offset⟩ ::
      scanFrom (offset + c.utf8Size) chars

def scanCharacters : Scanner := fun text =>
  scanFrom 0 text.toList

theorem pieceEach_scanFrom (offset : Nat) (chars : List Char) :
    PieceEach offset chars (scanFrom offset chars) := by
  induction chars generalizing offset with
  | nil => exact .nil offset
  | cons c chars ih => exact .cons (fun pattern => (pattern.matchesChar_iff c).symm) (ih _)

theorem characterwise_scanCharacters : scanCharacters.Characterwise :=
  fun text => pieceEach_scanFrom 0 text.toList

end Arith
