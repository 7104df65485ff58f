import RingRouting.Text.Hex

/-!
# Writing JSON

Compact JSON text. A string escapes quotes, backslashes and control characters, the common ones by a
letter and the others by their code, and nothing else.
-/

namespace RingRouting.Json

/-- One character of a string. -/
def escapeChar (c : Char) : String :=
  match c with
  | '"' => "\\\""
  | '\\' => "\\\\"
  | '\x08' => "\\b"
  | '\x0c' => "\\f"
  | '\n' => "\\n"
  | '\r' => "\\r"
  | '\t' => "\\t"
  | c => if c.toNat < 0x20 then "\\u" ++ Text.hexPadded 4 c.toNat else c.toString

/-- The text of a string. -/
def writeString (s : String) : String :=
  "\"" ++ String.join (s.toList.map escapeChar) ++ "\""

/-- The text of a natural number. -/
def writeNat (n : Nat) : String :=
  toString n

/-- The text of an array, given the texts of its items. -/
def writeArray (items : List String) : String :=
  "[" ++ ",".intercalate items ++ "]"

/-- The text of an object, given the names and the texts of its fields. -/
def writeObject (fields : List (String × String)) : String :=
  "\x7b" ++ ",".intercalate (fields.map fun (name, value) => writeString name ++ ":" ++ value) ++
    "\x7d"

end RingRouting.Json
