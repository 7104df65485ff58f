/-!
# Values of a JSON text

What a JSON text says, as far as a reader of typed values can tell. A text may be well formed and
still hold things that no typed value can be read from: a string one of whose escapes is half of a
surrogate pair, or a number that is not written as a plain natural number of at most 64 bits. Such
strings and numbers carry `none`; they are accepted wherever the value is skipped, and refused
wherever it is wanted.
-/

namespace RingRouting

/-- The value of a JSON text. -/
inductive Json where
  | null
  | bool (value : Bool)
  | number (natural : Option Nat)
  | string (text : Option String)
  | array (items : List Json)
  | object (fields : List (Option String × Json))
deriving Inhabited

namespace Json

/-- The text of a string. -/
def text? : Json → Option String
  | .string text => text
  | _ => none

/-- The value of a number written as a natural number of at most `limit`. -/
def natural? (limit : Nat) : Json → Option Nat
  | .number (some n) => if n ≤ limit then some n else none
  | _ => none

/-- The items of an array. -/
def items? : Json → Option (List Json)
  | .array items => some items
  | _ => none

/-- The list of texts in an array of strings. -/
def texts? (j : Json) : Option (List String) := do
  (← j.items?).mapM text?

/-- The name of a case of an enumeration: a string, or an object whose one field has the name and
holds null. -/
def case? : Json → Option String
  | .string text => text
  | .object [(name, .null)] => name
  | _ => none

/-- The value given to a field, if any. A field must not be given twice. -/
def field? (fields : List (String × Json)) (name : String) : Option (Option Json) :=
  match fields.filter (·.1 == name) with
  | [] => some none
  | [(_, value)] => some (some value)
  | _ => none

/-- The values of a record with the given field names. An object gives them by name, and may have
other fields, whose names must be texts all the same. An array gives them in order, and may stop
early but not go on. -/
def record? (names : List String) : Json → Option (List (Option Json))
  | .object fields => do
    let fields ← fields.mapM fun (name, value) => name.map (·, value)
    names.mapM (field? fields)
  | .array items =>
    if items.length ≤ names.length then
      some (items.map some ++ List.replicate (names.length - items.length) none)
    else none
  | _ => none

end Json

end RingRouting
