import RingRouting.Text.Alphanumeric
import RingRouting.Text.Blank
import RingRouting.Text.Hex

/-!
# Patterns

A field of a log filter may be compared with a pattern, a regular expression. This library matches
none, so all that counts is whether a pattern is well formed: its groups and classes close, its
repetitions have something to repeat, its escapes are known, and it is not nested too deeply. A
pattern matches whole characters, and it has no tables of letters: what could match a part of a
character, or needs to know the letters of all scripts, is refused as well.

A pattern never holds a closing brace, which ends the fields of a span before that. So whatever
needs one, such as a counted repetition, is refused at its opening brace.
-/

namespace RingRouting.CommandLine.Pattern

/-- How a part of a pattern is read. -/
structure Mode where
  /-- Letters match in either case. -/
  ignoreCase : Bool := false
  /-- Characters are those of all scripts, not bytes. -/
  allScripts : Bool := true
  /-- White space and comments do not count. -/
  spaced : Bool := false

namespace Mode

/-- Turn a flag on or off. The other flags change what is matched, not what is well formed. -/
def set (m : Mode) (flag : Char) (on : Bool) : Mode :=
  match flag with
  | 'i' => { m with ignoreCase := on }
  | 'u' => { m with allScripts := on }
  | 'x' => { m with spaced := on }
  | _ => m

/-- Pass over white space and comments. A comment goes from a number sign to the end of its line. -/
def skipSpace (comment : Bool) : List Char → List Char
  | [] => []
  | c :: rest =>
    if comment then skipSpace (c ≠ '\n') rest
    else if c = '#' then skipSpace true rest
    else if Text.isBlank c then skipSpace false rest
    else c :: rest

/-- Pass over what does not count. -/
def skip (m : Mode) (cs : List Char) : List Char :=
  if m.spaced then skipSpace false cs else cs

/-- Look ahead past white space and past one number sign, which opens no comment here. -/
def glance (m : Mode) (cs : List Char) : Option Char :=
  if m.spaced then
    match cs.dropWhile Text.isBlank with
    | '#' :: rest => (rest.dropWhile Text.isBlank).head?
    | rest => rest.head?
  else cs.head?

/-- A letter of some script may be matched as itself. In either case it cannot be: that takes a
table. -/
def admitsLetters (m : Mode) : Bool :=
  m.allScripts && !m.ignoreCase

end Mode

/-! ## Atoms -/

/-- What a pattern is put together from. -/
inductive Atom where
  /-- A character, and whether it is given as a byte. -/
  | char (c : Char) (byte : Bool)
  /-- All digits, all white space or all word characters, or all others. -/
  | kind (negated : Bool)
  /-- Any character. -/
  | any
  /-- The beginning or the end of a line or of the text. -/
  | edge
  /-- The beginning, the end or the inside of a word. -/
  | wordEdge

namespace Atom

/-- The atom may stand in a pattern that is read in this mode. -/
def fits (m : Mode) : Atom → Bool
  | .char c byte => m.admitsLetters || !m.allScripts && !(byte && 0x80 ≤ c.toNat)
  | .kind negated => !m.allScripts && !negated
  | .any => m.allScripts
  | .edge => true
  | .wordEdge => !m.allScripts

/-- The atom may stand in a class that is read in this mode. -/
def fitsClass (m : Mode) : Atom → Bool
  | .char c _ => m.admitsLetters || !m.allScripts && c.toNat < 0x80
  | .kind negated => !m.allScripts && !negated
  | .any | .edge | .wordEdge => false

end Atom

/-- Read the character given by `digits` hexadecimal digits, behind those that make up `value`. -/
def readCode (m : Mode) (byte : Bool) : Nat → Nat → List Char → Option (Atom × List Char)
  | 0, value, cs => if value.isValidChar then some (.char (Char.ofNat value) byte, cs) else none
  | digits + 1, value, cs =>
    match m.skip cs with
    | [] => none
    | c :: rest =>
      match Text.hexDigit? c with
      | some digit => readCode m byte digits (16 * value + digit) rest
      | none => none

/-- The control character that a letter stands for behind a backslash. -/
def controlChar? : Char → Option Char
  | 'a' => some '\x07'
  | 'f' => some '\x0c'
  | 'n' => some '\n'
  | 'r' => some '\r'
  | 't' => some '\t'
  | 'v' => some '\x0b'
  | _ => none

/-- Read an escape after its backslash. Whatever is no letter, no digit and no angle bracket stands
for itself. There are no references to groups, and no properties of characters. -/
def readEscape (m : Mode) : List Char → Option (Atom × List Char)
  | 'x' :: rest => readCode m true 2 0 rest
  | 'u' :: rest => readCode m false 4 0 rest
  | 'U' :: rest => readCode m false 8 0 rest
  | 'd' :: rest | 's' :: rest | 'w' :: rest => some (.kind false, rest)
  | 'D' :: rest | 'S' :: rest | 'W' :: rest => some (.kind true, rest)
  | 'A' :: rest | 'z' :: rest => some (.edge, rest)
  | 'b' :: rest | 'B' :: rest | '<' :: rest | '>' :: rest => some (.wordEdge, rest)
  | c :: rest =>
    match controlChar? c with
    | some control => some (.char control false, rest)
    | none => if c.toNat < 0x80 && !c.isAlphanum then some (.char c false, rest) else none
  | [] => none

/-! ## Nesting -/

/-- How deeply a pattern may be nested. -/
def depthLimit : Nat := 250

/-- The depth of what consists of parts of the given depths. A part that is alone adds no level. -/
def depthOf : List Nat → Nat
  | [] => 0
  | [depth] => depth
  | depths => 1 + depths.foldl max 0

/-! ## Classes -/

/-- What was read of a class. -/
structure Class where
  /-- The depth of what stands before the last operator. -/
  left : Option Nat := none
  /-- The depths of the items since then. -/
  items : List Nat := []

namespace Class

/-- Put in an item. -/
def add (c : Class) (depth : Nat) : Class :=
  { c with items := depth :: c.items }

/-- The depth of the contents. -/
def depth (c : Class) : Nat :=
  match c.left with
  | none => depthOf c.items
  | some left => 1 + max left (depthOf c.items)

end Class

/-- The names of classes. -/
def classNames : List String :=
  ["alnum", "alpha", "ascii", "blank", "cntrl", "digit", "graph", "lower", "print", "punct",
    "space", "upper", "word", "xdigit"]

/-- Read the name of a class after its opening bracket: whether it is negated, and what follows. -/
def readClassName : List Char → Option (Bool × List Char)
  | ':' :: rest =>
    let (negated, rest) := match rest with
      | '^' :: rest => (true, rest)
      | rest => (false, rest)
    match rest.dropWhile (· ≠ ':') with
    | ':' :: ']' :: after =>
      if classNames.contains (String.ofList (rest.takeWhile (· ≠ ':'))) then some (negated, after)
      else none
    | _ => none
  | _ => none

/-- Read one atom of a class. -/
def readClassAtom (m : Mode) : List Char → Option (Atom × List Char)
  | '\\' :: rest => readEscape m rest
  | c :: rest => some (.char c false, rest)
  | [] => none

/-- Read an item of a class: an atom, or two characters with a dash between them, in their order.
The dash does not join them where a glance behind it shows a closing bracket or another dash.
Whatever else follows the dash, and the comments there, is the second character, were it such a
bracket or dash. -/
def readClassItem (m : Mode) (cs : List Char) : Option (List Char) := do
  let (first, rest) ← readClassAtom m cs
  let alone (rest : List Char) := if first.fitsClass m then some rest else none
  match m.skip rest with
  | [] => none
  | '-' :: after =>
    if m.glance after = some ']' ∨ m.glance after = some '-' then alone ('-' :: after)
    else
      let (last, rest) ← readClassAtom m (m.skip after)
      match first, last with
      | .char low _, .char high _ =>
        if low ≤ high && first.fitsClass m && last.fitsClass m then some rest else none
      | _, _ => none
  | rest => alone rest

/-- Read the negation at the beginning of a class, if there is one. A negated class of bytes would
match a part of a character. -/
def readNegation (m : Mode) (cs : List Char) : Option (List Char) :=
  match m.skip cs with
  | '^' :: rest => if m.allScripts then some rest else none
  | rest => some rest

/-- Read a class up to its closing bracket: its depth, and what follows. The first argument bounds
the number of items; the length of the input is enough. At the beginning, dashes stand for
themselves, and so does a closing bracket that comes first. -/
def readClass (m : Mode) : Nat → Bool → List Class → Class → List Char → Option (Nat × List Char)
  | 0, _, _, _, _ => none
  | fuel + 1, beginning, outer, cls, cs =>
    match m.skip cs with
    | [] => none
    | c :: rest =>
      if beginning && (c == '-' || c == ']' && cls.items.isEmpty) then
        if (Atom.char c false).fitsClass m then readClass m fuel (c == '-') outer (cls.add 0) rest
        else none
      else if c = '[' then
        match readClassName rest with
        | some (negated, rest) =>
          if m.admitsLetters || !m.allScripts && !negated then
            readClass m fuel false outer (cls.add 0) rest
          else none
        | none =>
          match readNegation m rest with
          | some rest => readClass m fuel true (cls :: outer) {} rest
          | none => none
      else if c = ']' then
        match outer with
        | [] => some (1 + cls.depth, rest)
        | above :: outer => readClass m fuel false outer (above.add (1 + cls.depth)) rest
      else if (c = '&' ∨ c = '-' ∨ c = '~') ∧ rest.head? = some c then
        readClass m fuel false outer { left := some cls.depth } rest.tail
      else
        match readClassItem m (c :: rest) with
        | some rest => readClass m fuel false outer (cls.add 0) rest
        | none => none

/-! ## Groups -/

/-- A group that is not closed yet: how the pattern goes on around it, and what stands before it. -/
structure Group where
  mode : Mode
  branches : List Nat
  parts : List (Option Nat)

/-- What was read of a pattern. -/
structure Progress where
  mode : Mode := {}
  /-- The names of the groups so far. -/
  names : List String := []
  /-- The open groups, the innermost first. -/
  outer : List Group := []
  /-- The depths of the finished alternatives. -/
  branches : List Nat := []
  /-- The depths of the parts of the present alternative, the last one first. A part that only sets
  flags has none. -/
  parts : List (Option Nat) := []

namespace Progress

/-- The depth of the present alternative. -/
def branch (p : Progress) : Nat :=
  depthOf (p.parts.map (·.getD 0))

/-- The depth of what was read since the innermost group was opened. -/
def depth (p : Progress) : Nat :=
  depthOf (p.branch :: p.branches)

/-- Add a part. -/
def add (p : Progress) (depth : Nat) : Progress :=
  { p with parts := some depth :: p.parts }

/-- Open a group whose inside is read in its own mode. -/
def enter (p : Progress) (inside : Mode) : Progress :=
  { mode := inside, names := p.names, outer := ⟨p.mode, p.branches, p.parts⟩ :: p.outer }

/-- Close the innermost group. Flags that were set in it end with it. -/
def leave? (p : Progress) : Option Progress :=
  match p.outer with
  | [] => none
  | g :: outer =>
    some {
      mode := g.mode
      names := p.names
      outer
      branches := g.branches
      parts := some (1 + p.depth) :: g.parts }

end Progress

/-- The flags, and the dash that turns off those behind it. -/
def flagNames : List Char := ['i', 'm', 's', 'U', 'u', 'R', 'x', '-']

/-- Read flags, each at most once: the mode they set, whether a group follows, and the rest. Behind
the dash there must be a flag, and flags that stand alone must be some. -/
def readFlags (m : Mode) (on : Bool) (seen : List Char) :
    List Char → Option (Mode × Bool × List Char)
  | [] => none
  | c :: rest =>
    if c = ':' ∨ c = ')' then
      if seen.head? = some '-' ∨ c = ')' ∧ seen = [] then none else some (m, c == ':', rest)
    else if flagNames.contains c && !seen.contains c then
      readFlags (m.set c on) (on && c != '-') (c :: seen) rest
    else none

/-- The text may name a group. -/
def isGroupName : List Char → Bool
  | [] => false
  | c :: rest =>
    (c == '_' || Text.isAlphabetic c) &&
      rest.all fun c => c == '_' || c == '.' || c == '[' || c == ']' || Text.isAlphanumeric c

/-- Read the name of a group, which no other group has, and enter the group. -/
def readGroupName (p : Progress) (cs : List Char) : Option (Progress × List Char) :=
  let name := cs.takeWhile (· ≠ '>')
  match cs.dropWhile (· ≠ '>') with
  | [] => none
  | _ :: rest =>
    if isGroupName name && !p.names.contains (String.ofList name) then
      some ({ p with names := String.ofList name :: p.names }.enter p.mode, rest)
    else none

/-- Read what follows the opening parenthesis of a group, or of flags. There is no look-around. -/
def readGroup (p : Progress) : List Char → Option (Progress × List Char)
  | '?' :: 'P' :: '<' :: rest => readGroupName p rest
  | '?' :: '<' :: rest =>
    if rest.head? = some '=' ∨ rest.head? = some '!' then none else readGroupName p rest
  | '?' :: rest =>
    match readFlags p.mode true [] rest with
    | some (inside, true, rest) => some (p.enter inside, rest)
    | some (after, false, rest) => some ({ p with mode := after, parts := none :: p.parts }, rest)
    | none => none
  | rest => some (p.enter p.mode, rest)

/-! ## Patterns -/

/-- Add an atom. -/
def readAtom (p : Progress) (a : Atom) (rest : List Char) : Option (Progress × List Char) :=
  if a.fits p.mode then some (p.add 0, rest) else none

/-- Repeat the last part. A question mark behind the repetition belongs to it. -/
def readRepetition (p : Progress) (rest : List Char) : Option (Progress × List Char) :=
  match p.parts with
  | some depth :: parts =>
    some ({ p with parts := some (depth + 1) :: parts },
      if rest.head? = some '?' then rest.tail else rest)
  | _ => none

/-- Read what begins with the character `c`. -/
def readPart (p : Progress) (c : Char) (rest : List Char) : Option (Progress × List Char) :=
  match c with
  | '(' => readGroup p (p.mode.skip rest)
  | ')' => p.leave?.map (·, rest)
  | '|' => some ({ p with branches := p.branch :: p.branches, parts := [] }, rest)
  | '[' => do
    let inside ← readNegation p.mode rest
    let (depth, rest) ← readClass p.mode (inside.length + 1) true [] {} inside
    return (p.add depth, rest)
  | '?' | '*' | '+' => readRepetition p rest
  | '{' => none
  | '\\' => do
    let (a, rest) ← readEscape p.mode rest
    readAtom p a rest
  | '.' => readAtom p .any rest
  | '^' | '$' => readAtom p .edge rest
  | c => readAtom p (.char c false) rest

/-- Read a pattern to its end: its depth. The first argument bounds the number of parts; the length
of the input and one is enough. -/
def readAll : Nat → Progress → List Char → Option Nat
  | 0, _, _ => none
  | fuel + 1, p, cs =>
    match p.mode.skip cs with
    | [] => if p.outer.isEmpty then some p.depth else none
    | c :: rest =>
      match readPart p c rest with
      | some (p, rest) => readAll fuel p rest
      | none => none

/-- The text is a well-formed pattern. -/
def isValid (cs : List Char) : Bool :=
  match readAll (cs.length + 1) {} cs with
  | some depth => depth ≤ depthLimit
  | none => false

end RingRouting.CommandLine.Pattern
