import Arith.Token

/-! Texts as token sequences, and what lexing leaves out.

Every character is a token or is skipped. Skipped characters keep the byte at
which they stand, so that tokens and skips together account for the whole text.
-/

set_option autoImplicit false

namespace Arith

def lex (text : String) : List Token :=
  text.toList.filterMap Token.ofChar?

theorem lex_append (first second : String) : lex (first ++ second) = lex first ++ lex second := by
  simp only [lex, String.toList_append, List.filterMap_append]

/-- A character that is no token, and the number of bytes before it in the UTF-8
form of the text. -/
structure Skip where
  char : Char
  offset : Nat
  deriving DecidableEq, Repr

def skipsFrom (offset : Nat) : List Char → List Skip
  | [] => []
  | c :: rest =>
    if (Token.ofChar? c).isNone then ⟨c, offset⟩ :: skipsFrom (offset + c.utf8Size) rest
    else skipsFrom (offset + c.utf8Size) rest

def collectSkips (found : List Skip) (offset : Nat) : List Char → List Skip
  | [] => found.reverse
  | c :: rest =>
    collectSkips (if (Token.ofChar? c).isNone then ⟨c, offset⟩ :: found else found)
      (offset + c.utf8Size) rest

def skips (text : String) : List Skip :=
  collectSkips [] 0 text.toList

theorem collectSkips_eq (found : List Skip) (offset : Nat) (chars : List Char) :
    collectSkips found offset chars = found.reverse ++ skipsFrom offset chars := by
  induction chars generalizing found offset with
  | nil => simp only [collectSkips, skipsFrom, List.append_nil]
  | cons c rest ih =>
      simp only [collectSkips, skipsFrom, ih]
      split <;> simp only [List.reverse_cons, List.append_assoc, List.singleton_append]

theorem skips_eq (text : String) : skips text = skipsFrom 0 text.toList :=
  collectSkips_eq [] 0 text.toList

end Arith
