import RingRouting.Text.Hex
import RingRouting.Text.Hidden

/-!
# Quoted text

A text between double quotes, on one line: quotes and backslashes are escaped, as are the characters
that would not be seen. Single quotes and printable characters of any script stay as they are.
-/

namespace RingRouting.Text

/-- One character of a quoted text. -/
def escapeChar (c : Char) : String :=
  match c with
  | '"' => "\\\""
  | '\\' => "\\\\"
  | '\n' => "\\n"
  | '\r' => "\\r"
  | '\t' => "\\t"
  | '\x00' => "\\0"
  | c =>
    if c.toNat < 0x20 || 0x7f ≤ c.toNat && isHidden c then
      "\\u\x7b" ++ hex c.toNat ++ "\x7d"
    else
      c.toString

/-- The text between double quotes. -/
def quote (s : String) : String :=
  "\"" ++ String.join (s.toList.map escapeChar) ++ "\""

end RingRouting.Text
