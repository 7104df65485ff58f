import RingRouting.Json.Basic
import RingRouting.Text.Hex

/-!
# Reading JSON

A strict reader: no blanks but space, tab, line feed and carriage return, no comments, no trailing
commas, nothing after the value. Strings must not hold raw control characters, and their escapes
must be well formed; whether the escaped code units make a text is decided after the string has been
read.
-/

namespace RingRouting.Json

/-- The characters that may stand between tokens. -/
def isBlank (c : Char) : Bool :=
  c == ' ' || c == '\t' || c == '\n' || c == '\r'

/-- Drop the blanks in front. -/
def skipBlanks (cs : List Char) : List Char :=
  cs.dropWhile isBlank

/-- A piece of a string: a character, or a code unit of sixteen bits written as an escape. -/
inductive Piece where
  | char (c : Char)
  | unit (u : Nat)
deriving DecidableEq

/-- The code unit of four hexadecimal digits. -/
def hexUnit? (a b c d : Char) : Option Nat := do
  return 4096 * (← Text.hexDigit? a) + 256 * (← Text.hexDigit? b) + 16 * (← Text.hexDigit? c) +
    (← Text.hexDigit? d)

/-- The character of an escape of two characters. -/
def unescape? : Char → Option Char
  | '"' => some '"'
  | '\\' => some '\\'
  | '/' => some '/'
  | 'b' => some '\x08'
  | 'f' => some '\x0c'
  | 'n' => some '\n'
  | 'r' => some '\r'
  | 't' => some '\t'
  | _ => none

/-- Read a string after its opening quote. -/
def readPieces (acc : List Piece) : List Char → Option (List Piece × List Char)
  | [] => none
  | c :: rest =>
    if c = '"' then some (acc.reverse, rest)
    else if c = '\\' then
      match rest with
      | 'u' :: h₁ :: h₂ :: h₃ :: h₄ :: rest =>
        match hexUnit? h₁ h₂ h₃ h₄ with
        | some u => readPieces (.unit u :: acc) rest
        | none => none
      | e :: rest =>
        match unescape? e with
        | some c => readPieces (.char c :: acc) rest
        | none => none
      | [] => none
    else if c.toNat < 0x20 then none
    else readPieces (.char c :: acc) rest

/-- The unit is the first half of a surrogate pair. -/
def isLead (u : Nat) : Bool := 0xd800 ≤ u && u < 0xdc00

/-- The unit is the second half of a surrogate pair. -/
def isTrail (u : Nat) : Bool := 0xdc00 ≤ u && u < 0xe000

/-- The characters of a string. Halves of surrogate pairs must stand together as escapes, first half
first. -/
def joinPieces (acc : List Char) : List Piece → Option String
  | [] => some (String.ofList acc.reverse)
  | .char c :: rest => joinPieces (c :: acc) rest
  | .unit u :: rest =>
    if isLead u then
      match rest with
      | .unit v :: rest =>
        if isTrail v then
          joinPieces (Char.ofNat (0x10000 + 0x400 * (u - 0xd800) + (v - 0xdc00)) :: acc) rest
        else none
      | _ => none
    else if isTrail u then none
    else joinPieces (Char.ofNat u :: acc) rest

/-- Read a string after its opening quote: its text, if it has one, and what follows. -/
def readString (cs : List Char) : Option (Option String × List Char) := do
  let (pieces, rest) ← readPieces [] cs
  return (joinPieces [] pieces, rest)

/-- The number written by a list of decimal digits. -/
def decimal (digits : List Char) : Nat :=
  digits.foldl (fun n c => 10 * n + (c.toNat - '0'.toNat)) 0

/-- Read one digit or more. -/
def readDigits (cs : List Char) : Option (List Char × List Char) :=
  match cs.takeWhile Char.isDigit with
  | [] => none
  | digits => some (digits, cs.dropWhile Char.isDigit)

/-- Read the integer part of a number, which has no leading zero. -/
def readWhole : List Char → Option (List Char × List Char)
  | '0' :: rest => some (['0'], rest)
  | cs => readDigits cs

/-- Read the fraction of a number: whether there is one, and what follows. -/
def readFraction : List Char → Option (Bool × List Char)
  | '.' :: rest => (readDigits rest).map fun (_, rest) => (true, rest)
  | cs => some (false, cs)

/-- Read the exponent of a number: whether there is one, and what follows. -/
def readExponent : List Char → Option (Bool × List Char)
  | c :: rest =>
    if c = 'e' ∨ c = 'E' then
      let unsigned := match rest with
        | '+' :: rest => rest
        | '-' :: rest => rest
        | rest => rest
      (readDigits unsigned).map fun (_, rest) => (true, rest)
    else some (false, c :: rest)
  | [] => some (false, [])

/-- The number written by a list of decimal digits that is not empty and has no leading zero, if it
has 64 bits or fewer. A number of more than twenty digits has more. -/
def word? (digits : List Char) : Option Nat :=
  if digits.length ≤ 20 then
    let n := decimal digits
    if n < UInt64.size then some n else none
  else none

/-- Read a number. Its value is kept if it is written in digits alone and has 64 bits or fewer. -/
def readNumber (cs : List Char) : Option (Json × List Char) := do
  let (negative, cs) := match cs with
    | '-' :: rest => (true, rest)
    | cs => (false, cs)
  let (digits, cs) ← readWhole cs
  let (fraction, cs) ← readFraction cs
  let (exponent, cs) ← readExponent cs
  let plain := !negative && !fraction && !exponent
  return (.number (if plain then word? digits else none), cs)

mutual

/-- Read a value, blanks before it included. The first argument bounds the depth of the calls; twice
the length of the input and two is always enough. -/
def readValue : Nat → List Char → Option (Json × List Char)
  | 0, _ => none
  | fuel + 1, cs =>
    match skipBlanks cs with
    | '"' :: rest => (readString rest).map fun (text, rest) => (.string text, rest)
    | '[' :: rest =>
      match skipBlanks rest with
      | ']' :: rest => some (.array [], rest)
      | rest => readItems fuel [] rest
    | '{' :: rest =>
      match skipBlanks rest with
      | '}' :: rest => some (.object [], rest)
      | rest => readFields fuel [] rest
    | 'n' :: 'u' :: 'l' :: 'l' :: rest => some (.null, rest)
    | 't' :: 'r' :: 'u' :: 'e' :: rest => some (.bool true, rest)
    | 'f' :: 'a' :: 'l' :: 's' :: 'e' :: rest => some (.bool false, rest)
    | cs => readNumber cs

/-- Read the items of an array that has at least one, up to its closing bracket. -/
def readItems : Nat → List Json → List Char → Option (Json × List Char)
  | 0, _, _ => none
  | fuel + 1, acc, cs =>
    match readValue fuel cs with
    | none => none
    | some (item, rest) =>
      match skipBlanks rest with
      | ',' :: rest => readItems fuel (item :: acc) rest
      | ']' :: rest => some (.array (item :: acc).reverse, rest)
      | _ => none

/-- Read the fields of an object that has at least one, up to its closing brace. -/
def readFields :
    Nat → List (Option String × Json) → List Char → Option (Json × List Char)
  | 0, _, _ => none
  | fuel + 1, acc, cs =>
    match skipBlanks cs with
    | '"' :: rest =>
      match readString rest with
      | none => none
      | some (name, rest) =>
        match skipBlanks rest with
        | ':' :: rest =>
          match readValue fuel rest with
          | none => none
          | some (value, rest) =>
            match skipBlanks rest with
            | ',' :: rest => readFields fuel ((name, value) :: acc) rest
            | '}' :: rest => some (.object ((name, value) :: acc).reverse, rest)
            | _ => none
        | _ => none
    | _ => none

end

/-- The value of a JSON text, which must hold nothing else. -/
def parse? (text : String) : Option Json :=
  let cs := text.toList
  match readValue (2 * cs.length + 2) cs with
  | some (value, rest) => if (skipBlanks rest).isEmpty then some value else none
  | none => none

end RingRouting.Json
