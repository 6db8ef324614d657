import Arith.Text.Printable

/-! Characters as a log shows them: in double quotes, with everything that would not
print spelled out. -/

set_option autoImplicit false

namespace Arith.Text

/-- Six characters have short forms. Of the rest, those that print stand for themselves, and
the others are given by their number in lower-case hexadecimal. -/
def escape : Char → String
  | '\x00' => "\\0"
  | '\t' => "\\t"
  | '\n' => "\\n"
  | '\r' => "\\r"
  | '"' => "\\\""
  | '\\' => "\\\\"
  | c =>
    if isPrintable c then c.toString
    else "\\u\x7b" ++ String.ofList (Nat.toDigits 16 c.toNat) ++ "\x7d"

def quoted (c : Char) : String :=
  "\"" ++ escape c ++ "\""

end Arith.Text
