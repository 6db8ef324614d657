import Arith.Proofs.Messages
import Arith.Trace

/-! Records from what a log shows of them.

A log shows a record as one line without anything that would not print, whatever characters
were skipped. What it spells out can be read back, so the line tells which record it is.
-/

set_option autoImplicit false

namespace Arith

namespace Text

theorem isPrintable_of_bounds {c : Char} (least : 0x20 ≤ c.toNat) (greatest : c.toNat ≤ 0x7e) :
    isPrintable c = true := by
  have apart : ∀ run ∈ unprintable, run.2 < 0x20 ∨ 0x7e < run.1 := by decide +kernel
  rw [isPrintable, Bool.not_eq_true', List.any_eq_false]
  intro run member
  have outside := apart run member
  simp only [Bool.and_eq_true, decide_eq_true_eq]
  omega

theorem exists_of_mem_toDigits {c : Char} {value : Nat} (member : c ∈ Nat.toDigits 16 value) :
    ∃ digit < 16, c = digit.digitChar := by
  induction value using Nat.strongRecOn with
  | ind value ih =>
      rw [Nat.toDigits_eq_if (by decide)] at member
      split at member
      · next small => exact ⟨value, small, List.mem_singleton.mp member⟩
      · next large =>
        rcases List.mem_append.mp member with before | last
        · exact ih (value / 16) (by omega) before
        · exact ⟨value % 16, Nat.mod_lt _ (by decide), List.mem_singleton.mp last⟩

def hexDigitValue (c : Char) : Nat :=
  if c.isDigit then c.toNat - '0'.toNat else c.toNat - 'a'.toNat + 10

def hexValue (digits : List Char) : Nat :=
  digits.foldl (fun value c => 16 * value + hexDigitValue c) 0

theorem hexDigitValue_digitChar : ∀ digit < 16, hexDigitValue digit.digitChar = digit := by
  decide

theorem hexValue_toDigits (value : Nat) : hexValue (Nat.toDigits 16 value) = value := by
  induction value using Nat.strongRecOn with
  | ind value ih =>
      rw [Nat.toDigits_eq_if (by decide)]
      split
      · next small =>
        have digit := hexDigitValue_digitChar value small
        simp only [hexValue, List.foldl_cons, List.foldl_nil, digit]
        omega
      · next large =>
        have before := ih (value / 16) (by omega)
        have digit := hexDigitValue_digitChar (value % 16) (Nat.mod_lt _ (by decide))
        rw [hexValue] at before
        rw [hexValue, List.foldl_append, before, List.foldl_cons, List.foldl_nil, digit]
        omega

def unescape : List Char → Option (Char × List Char)
  | '\\' :: '0' :: rest => some ('\x00', rest)
  | '\\' :: 't' :: rest => some ('\t', rest)
  | '\\' :: 'n' :: rest => some ('\n', rest)
  | '\\' :: 'r' :: rest => some ('\r', rest)
  | '\\' :: '"' :: rest => some ('"', rest)
  | '\\' :: '\\' :: rest => some ('\\', rest)
  | '\\' :: 'u' :: '\x7b' :: text =>
    some (Char.ofNat (hexValue (text.takeWhile (· != '\x7d'))),
      (text.dropWhile (· != '\x7d')).tail)
  | c :: rest => some (c, rest)
  | [] => none

theorem unescape_hexadecimal (c : Char) (rest : List Char) :
    unescape ('\\' :: 'u' :: '\x7b' :: (Nat.toDigits 16 c.toNat ++ '\x7d' :: rest)) =
      some (c, rest) := by
  have digits : ∀ d ∈ Nat.toDigits 16 c.toNat, (d != '\x7d') = true := by
    intro d member
    obtain ⟨digit, small, rfl⟩ := exists_of_mem_toDigits member
    have apart : ∀ digit < 16, (digit.digitChar != '\x7d') = true := by decide
    exact apart digit small
  simp only [unescape, List.takeWhile_append_of_pos digits, List.dropWhile_append_of_pos digits]
  simp [hexValue_toDigits]

theorem unescape_plain {c : Char} (plain : c ≠ '\\') (rest : List Char) :
    unescape (c :: rest) = some (c, rest) := by
  simp [unescape, plain]

theorem unescape_escape (c : Char) (rest : List Char) :
    unescape ((escape c).toList ++ rest) = some (c, rest) := by
  -- A character with a short escape is read back by computing; any other one is written as
  -- itself or as its number, which no computation gets through.
  unfold escape
  split
  case h_7 backslash =>
    split
    · rw [Char.toString_eq_singleton, String.toList_singleton]
      exact unescape_plain backslash rest
    · have opening : "\\u\x7b".toList = ['\\', 'u', '\x7b'] := by decide
      have closing : "\x7d".toList = ['\x7d'] := by decide
      simp only [String.toList_append, opening, closing, String.toList_ofList, List.append_assoc,
        List.cons_append, List.nil_append]
      exact unescape_hexadecimal c rest
  all_goals rfl

/-- The mark behind a quoted character is where it ends, whatever the character. -/
theorem quoted_append_inj {first second : Char} {after other : String}
    (same : quoted first ++ after = quoted second ++ other) : first = second ∧ after = other := by
  have mark : "\"".toList = ['"'] := by decide
  have spelled (c : Char) (rest : String) :
      (quoted c ++ rest).toList = '"' :: ((escape c).toList ++ '"' :: rest.toList) := by
    simp only [quoted, String.toList_append, mark, List.append_assoc, List.cons_append,
      List.nil_append]
  have chars := congrArg String.toList same
  rw [spelled, spelled] at chars
  have read := congrArg unescape (List.cons.inj chars).2
  rw [unescape_escape, unescape_escape] at read
  obtain ⟨characters, rests⟩ := Prod.mk.inj (Option.some.inj read)
  exact ⟨characters, String.toList_injective (List.cons.inj rests).2⟩

def Printable (text : String) : Prop :=
  ∀ c ∈ text.toList, isPrintable c = true

theorem Printable.append {first second : String} (printable : Printable first)
    (further : Printable second) : Printable (first ++ second) := by
  intro c member
  rw [String.toList_append, List.mem_append] at member
  exact member.elim (printable c) (further c)

theorem printable_of_bounds {text : String}
    (bounds : ∀ c ∈ text.toList, 0x20 ≤ c.toNat ∧ c.toNat ≤ 0x7e) : Printable text :=
  fun c member => isPrintable_of_bounds (bounds c member).1 (bounds c member).2

theorem printable_words {words : String}
    (bounds : (words.toList.all fun c => 0x20 ≤ c.toNat && c.toNat ≤ 0x7e) = true) :
    Printable words := by
  apply printable_of_bounds
  intro c member
  have both := List.all_eq_true.mp bounds c member
  rwa [Bool.and_eq_true, decide_eq_true_eq, decide_eq_true_eq] at both

theorem printable_toString (value : Nat) : Printable (toString value) := by
  apply printable_of_bounds
  intro c member
  rw [toList_toString] at member
  have digit := Nat.isDigit_of_mem_toDigits (by decide) (by decide) member
  have bounds := Char.isDigit_iff_toNat.mp digit
  have ends : '0'.toNat = 48 ∧ '9'.toNat = 57 := by decide
  omega

theorem printable_hexadecimal (value : Nat) :
    Printable (String.ofList (Nat.toDigits 16 value)) := by
  apply printable_of_bounds
  intro c member
  rw [String.toList_ofList] at member
  obtain ⟨digit, small, rfl⟩ := exists_of_mem_toDigits member
  have bounds : ∀ digit < 16, 0x20 ≤ digit.digitChar.toNat ∧ digit.digitChar.toNat ≤ 0x7e := by
    decide
  exact bounds digit small

theorem printable_escape (c : Char) : Printable (escape c) := by
  unfold escape
  split
  case h_7 =>
    split
    · next shows =>
      intro other member
      rw [Char.toString_eq_singleton, String.toList_singleton, List.mem_singleton] at member
      rwa [member]
    · have opening : Printable "\\u\x7b" := printable_words (by decide)
      have closing : Printable "\x7d" := printable_words (by decide)
      exact (opening.append (printable_hexadecimal _)).append closing
  all_goals exact printable_words (by decide)

theorem printable_quoted (c : Char) : Printable (quoted c) := by
  have mark : Printable "\"" := printable_words (by decide)
  exact (mark.append (printable_escape c)).append mark

end Text

open Text

theorem toString_append_inj {first second : Nat} {after other : String}
    (apart : EndsNumeral after.toList) (otherApart : EndsNumeral other.toList)
    (same : toString first ++ after = toString second ++ other) :
    first = second ∧ after = other := by
  have chars := congrArg String.toList same
  rw [String.toList_append, String.toList_append, toList_toString, toList_toString] at chars
  obtain ⟨numbers, rests⟩ := toDigits_append_inj apart otherApart chars
  exact ⟨numbers, String.toList_injective rests⟩

theorem toString_nat_inj {first second : Nat} (same : toString first = toString second) :
    first = second := by
  have chars := congrArg String.toList same
  rw [toList_toString, toList_toString] at chars
  have alone := congrArg (· ++ []) chars
  exact (toDigits_append_inj endsNumeral_nil endsNumeral_nil alone).1

theorem endsNumeral_append {words : String} {c : Char} (begins : words.toList.head? = some c)
    (other : c.isDigit = false) (rest : String) : EndsNumeral (words ++ rest).toList := by
  intro first member
  rw [String.toList_append, List.head?_append, begins] at member
  cases member
  exact other

namespace Record

def opening : Record → String
  | .skipped _ => "skipping unrecognized input "
  | .lexed _ _ => "lexed "
  | .reduced _ => "reduced '"
  | .rejectedTrailing _ => "rejecting trailing input at token "
  | .parsed _ _ => "parsed "

def details : Record → String
  | .skipped skip => quoted skip.char ++ (" at byte " ++ toString skip.offset)
  | .lexed tokens bytes => toString tokens ++ (" tokens from " ++ (toString bytes ++ " bytes"))
  | .reduced reduction =>
    reduction.op.symbol.toString ++ ("' at token " ++ toString reduction.position)
  | .rejectedTrailing position => toString position
  | .parsed tokens depth =>
    toString tokens ++ (" tokens into a tree of depth " ++ toString depth)

theorem message_eq (record : Record) : record.message = record.opening ++ record.details := by
  cases record with
  | rejectedTrailing position => rfl
  | lexed tokens bytes =>
      exact String.append_assoc.trans (String.append_assoc.trans String.append_assoc)
  | _ => exact String.append_assoc.trans String.append_assoc

theorem printable_message (record : Record) : Printable record.message := by
  have opens : Printable record.opening := by
    cases record <;> exact printable_words (by simp only [opening]; decide)
  rw [message_eq]
  apply opens.append
  cases record with
  | skipped skip =>
      have words : Printable " at byte " := printable_words (by decide)
      exact (printable_quoted _).append (words.append (printable_toString _))
  | lexed tokens bytes =>
      have words : Printable " tokens from " := printable_words (by decide)
      have final : Printable " bytes" := printable_words (by decide)
      exact (printable_toString _).append (words.append ((printable_toString _).append final))
  | reduced reduction =>
      have symbol : Printable reduction.op.symbol.toString := by
        cases reduction.op <;> exact printable_words (by decide)
      have words : Printable "' at token " := printable_words (by decide)
      exact symbol.append (words.append (printable_toString _))
  | rejectedTrailing position => exact printable_toString position
  | parsed tokens depth =>
      have words : Printable " tokens into a tree of depth " := printable_words (by decide)
      exact (printable_toString _).append (words.append (printable_toString _))

theorem take_message (record : Record) :
    record.message.toList.take 3 = record.opening.toList.take 3 := by
  have long : 3 ≤ record.opening.toList.length := by
    cases record <;> simp only [opening] <;> decide
  rw [message_eq, String.toList_append, List.take_append_of_le_length long]

theorem opening_eq_of_message {first second : Record} (same : first.message = second.message) :
    first.opening = second.opening := by
  have letters : first.opening.toList.take 3 = second.opening.toList.take 3 := by
    rw [← take_message, ← take_message, same]
  cases first <;> cases second
  all_goals first
    | rfl
    | exact absurd letters (by simp only [opening]; decide)

theorem eq_of_details {first second : Record} (kind : first.opening = second.opening)
    (same : first.details = second.details) : first = second := by
  cases first <;> cases second
  case skipped.skipped skip other =>
    obtain ⟨char, offset⟩ := skip
    obtain ⟨otherChar, otherOffset⟩ := other
    obtain ⟨chars, behind⟩ := quoted_append_inj same
    obtain rfl : char = otherChar := chars
    obtain rfl : offset = otherOffset := toString_nat_inj ((String.append_right_inj _).mp behind)
    rfl
  case lexed.lexed tokens bytes otherTokens otherBytes =>
    have blank : " tokens from ".toList.head? = some ' ' := by decide
    obtain ⟨rfl, behind⟩ := toString_append_inj (endsNumeral_append blank (by decide) _)
      (endsNumeral_append blank (by decide) _) same
    rw [toString_nat_inj (between_inj behind)]
  case reduced.reduced reduction other =>
    obtain ⟨op, position⟩ := reduction
    obtain ⟨otherOp, otherPosition⟩ := other
    have chars := congrArg String.toList same
    simp only [details, String.toList_append, Char.toString_eq_singleton, String.toList_singleton,
      List.singleton_append, List.cons.injEq, List.append_cancel_left_eq] at chars
    obtain ⟨symbols, positions⟩ := chars
    obtain rfl : op = otherOp := Operator.symbol_inj symbols
    obtain rfl : position = otherPosition :=
      toString_nat_inj (String.toList_injective positions)
    rfl
  case rejectedTrailing.rejectedTrailing position other => rw [toString_nat_inj same]
  case parsed.parsed tokens depth otherTokens otherDepth =>
    have blank : " tokens into a tree of depth ".toList.head? = some ' ' := by decide
    obtain ⟨rfl, behind⟩ := toString_append_inj (endsNumeral_append blank (by decide) _)
      (endsNumeral_append blank (by decide) _) same
    rw [toString_nat_inj ((String.append_right_inj _).mp behind)]
  all_goals exact absurd kind (by simp [opening])

theorem message_injective : Function.Injective message := by
  intro first second same
  have kind := opening_eq_of_message same
  rw [message_eq, message_eq, kind, String.append_right_inj] at same
  exact eq_of_details kind same

/-- The level that a log shows, and the text. -/
def shown (record : Record) : String × String :=
  (record.level.name, record.message)

theorem printable_shown (record : Record) :
    Printable record.shown.1 ∧ Printable record.shown.2 := by
  refine ⟨?_, record.printable_message⟩
  cases record <;> exact printable_words (by simp only [shown, level, Level.name]; decide)

theorem shown_injective : Function.Injective shown :=
  fun _ _ same => message_injective (Prod.mk.inj same).2

end Record

/-- A log shows nothing that would not print, and the records can be told from what it
shows. -/
theorem log_told_apart :
    (∀ record : Record, Printable record.shown.1 ∧ Printable record.shown.2) ∧
    ∀ first second : String,
      (records first).map Record.shown = (records second).map Record.shown ↔
        records first = records second := by
  refine ⟨Record.printable_shown, ?_⟩
  intro first second
  exact List.map_inj_right Record.shown_injective

end Arith
