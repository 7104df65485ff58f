import RingRouting.CommandLine.Pattern

/-!
# Log filters

A log filter is a list of directives between commas. A directive is a level, a target, or a target
and a level; a target may name a span in brackets, and the span a field in braces, perhaps with the
value that it must have: `store[load{key=a.*}]=debug`. This library keeps no log, so all that counts
is whether a filter is well formed.

A directive is laid out as if there were no white space around it, but what it consists of is taken
from the text as written, at the same distances in bytes from the beginning. So a level must not
have white space behind it, and white space in front shifts what is taken.
-/

namespace RingRouting.CommandLine.LogFilter

/-- The names of the levels. -/
def levelNames : List String := ["off", "error", "warn", "info", "debug", "trace"]

/-- The text is a level: its name in any case, or its number from 0 to 5. -/
def isLevel (cs : List Char) : Bool :=
  let digits := match cs with
    | '+' :: rest => rest
    | _ => cs
  (!digits.isEmpty && digits.all Char.isDigit &&
    Nat.ofDigitChars 10 digits 0 < levelNames.length) ||
    levelNames.contains (String.ofList (cs.map Char.toLower))

/-- The text without its sign. -/
def unsigned : List Char → List Char
  | '+' :: rest => rest
  | '-' :: rest => rest
  | cs => cs

/-- The text is a number in decimal, with a fraction or an exponent or without. -/
def isDecimal (cs : List Char) : Bool :=
  let whole := cs.takeWhile Char.isDigit
  let (fraction, rest) := match cs.dropWhile Char.isDigit with
    | '.' :: rest => (rest.takeWhile Char.isDigit, rest.dropWhile Char.isDigit)
    | rest => ([], rest)
  (!whole.isEmpty || !fraction.isEmpty) &&
    match rest with
    | [] => true
    | c :: exponent =>
      (c == 'e' || c == 'E') && !(unsigned exponent).isEmpty && (unsigned exponent).all Char.isDigit

/-- The numbers that have no digits. -/
def numberNames : List String := ["inf", "infinity", "nan"]

/-- The text is a number, with a sign or without. -/
def isNumber (cs : List Char) : Bool :=
  isDecimal (unsigned cs) || numberNames.contains (String.ofList ((unsigned cs).map Char.toLower))

/-- The text names a field, perhaps with a value behind an equals sign: a number or a pattern. What
follows a second equals sign does not count. -/
def isField (cs : List Char) : Bool :=
  match cs.dropWhile (· ≠ '=') with
  | [] => true
  | _ :: rest =>
    let value := rest.takeWhile (· ≠ '=')
    isNumber value || Pattern.isValid value

/-- How many bytes a text takes. -/
def byteLength (cs : List Char) : Nat :=
  cs.foldr (fun c n => c.utf8Size + n) 0

/-- How a directive is laid out. Places are distances in bytes from its beginning. -/
structure Layout where
  /-- Where the field of the span begins and ends. -/
  field : Option (Nat × Nat) := none
  /-- Where the level begins. It goes to the end. -/
  level : Option Nat := none

namespace Layout

/-- What may follow a span: an equals sign and a level, or nothing. The place of a text is told from
the bytes left after it. -/
def ofSpanEnd? (place : List Char → Nat) (field : Option (Nat × Nat)) : List Char → Option Layout
  | [] => some { field }
  | '=' :: level => some { field, level := some (place level) }
  | _ => none

/-- What may follow the opening bracket of a span. A field in braces must not be empty. -/
def ofSpan? (place : List Char → Nat) (cs : List Char) : Option Layout :=
  match cs.dropWhile fun c => c ≠ ']' && c ≠ '\x7b' with
  | ']' :: rest => ofSpanEnd? place none rest
  | '\x7b' :: field =>
    match field.dropWhile (· ≠ '\x7d') with
    | '\x7d' :: ']' :: rest =>
      let stop := field.dropWhile (· ≠ '\x7d')
      if place field < place stop then ofSpanEnd? place (some (place field, place stop)) rest
      else none
    | _ => none
  | _ => none

/-- The layout of a directive without white space around it. -/
def of? (directive : List Char) : Option Layout :=
  let place (rest : List Char) := byteLength directive - byteLength rest
  match directive with
  | [] => none
  | '[' :: span => ofSpan? place span
  | c :: rest =>
    if c == '-' || c == ':' || c == '_' || Text.isAlphanumeric c then
      match rest.dropWhile fun c => c ≠ '=' && c ≠ '[' with
      | '=' :: level => some { level := some (place level) }
      | '[' :: span => ofSpan? place span
      | _ => some {}
    else none

end Layout

/-- The text between two places of a directive, if they do not divide a character. -/
def cut? (written : List Char) (start stop : Nat) : Option (List Char) :=
  (String.fromUTF8? ((String.ofList written).toUTF8.extract start stop)).map String.toList

/-- The text is a directive. An equals sign with nothing behind it is as good as a level. -/
def isDirective (written : List Char) : Bool :=
  match Layout.of? (Text.trim written) with
  | none => false
  | some layout =>
    (match layout.field with
      | none => true
      | some (start, stop) => (cut? written start stop).any isField) &&
    (match layout.level with
      | none => true
      | some start =>
        (cut? written start (byteLength written)).any fun level => level.isEmpty || isLevel level)

/-- The filter is well formed. Nothing between two commas is no directive, and the empty filter has
none. -/
def isValid (filter : String) : Bool :=
  ((filter.toList.splitOn ',').filter (!·.isEmpty)).all isDirective

end RingRouting.CommandLine.LogFilter
