import RingRouting.Text.Hex

/-!
# Positions on the ring

The ring has `2^64` positions, numbered clockwise. The distance from one position to another is
always measured clockwise, so it wraps past the last position, and the two distances between two
different positions add up to the whole circle.
-/

namespace RingRouting

/-- A position on the ring. -/
structure Token where
  val : UInt64
deriving DecidableEq, Inhabited, Repr

namespace Token

/-- The first position. -/
def first : Token := ⟨0⟩

/-- The last position, one step before the first. -/
def last : Token := ⟨0xffffffffffffffff⟩

/-- How far `b` lies clockwise of `a`. -/
def distance (a b : Token) : UInt64 :=
  b.val - a.val

instance : Ord Token where
  compare := compareOn val

instance : Std.TransOrd Token :=
  inferInstanceAs (Std.TransCmp (compareOn val))

instance : Std.LawfulEqOrd Token where
  eq_of_compare {a b} h := by
    have hval : a.val = b.val := Std.LawfulEqOrd.eq_of_compare h
    cases a
    cases b
    simp_all

instance : ToString Token where
  toString t := Text.hex64 t.val

end Token

end RingRouting
