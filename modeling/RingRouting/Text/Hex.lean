/-!
# Hexadecimal text

Digits are written in lower case, either as few as the number needs or at a fixed width, and read in
either case.
-/

namespace RingRouting.Text

/-- The digits of `n` in base sixteen, without leading zeros. -/
def hex (n : Nat) : String :=
  String.ofList (Nat.toDigits 16 n)

/-- The digits of `n` in base sixteen, filled up with zeros to `width`. -/
def hexPadded (width n : Nat) : String :=
  let digits := Nat.toDigits 16 n
  String.ofList (List.replicate (width - digits.length) '0' ++ digits)

/-- The sixteen digits of a 64-bit word. -/
def hex64 (w : UInt64) : String :=
  hexPadded 16 w.toNat

/-- The value of a digit. -/
def hexDigit? (c : Char) : Option Nat :=
  if '0' ≤ c ∧ c ≤ '9' then some (c.toNat - '0'.toNat)
  else if 'a' ≤ c ∧ c ≤ 'f' then some (c.toNat - 'a'.toNat + 10)
  else if 'A' ≤ c ∧ c ≤ 'F' then some (c.toNat - 'A'.toNat + 10)
  else none

end RingRouting.Text
