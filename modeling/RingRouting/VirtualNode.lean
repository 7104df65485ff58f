import RingRouting.Partitioner

/-!
# Virtual nodes

A member stands on the ring at several positions at once. Each of them is a virtual node: a token
and the key of the member that owns it. Virtual nodes are ordered by token first and by key second,
so that two members that meet on one token still have a fixed order.
-/

namespace RingRouting

/-- One position of a member on the ring. -/
structure VirtualNode where
  token : Token
  member : String
deriving DecidableEq, Repr

namespace VirtualNode

instance : Ord VirtualNode where
  compare := compareLex (compareOn token) (compareOn member)

instance : Std.TransOrd VirtualNode :=
  inferInstanceAs (Std.TransCmp (compareLex (compareOn token) (compareOn member)))

instance : Std.LawfulEqOrd VirtualNode where
  eq_of_compare {a b} h := by
    have hboth := compareLex_eq_eq.mp h
    have htoken : a.token = b.token := Std.LawfulEqOrd.eq_of_compare hboth.1
    have hmember : a.member = b.member := Std.LawfulEqOrd.eq_of_compare hboth.2
    cases a
    cases b
    simp_all

/-- The label that the `index`-th virtual node of a member is hashed from: the member's key followed
by the index in decimal. -/
def label (member : String) (index : Nat) : String :=
  member ++ toString index

/-- The `index`-th virtual node of a member. It depends on nothing but the key and the index, so
every client places it alike. -/
def ofIndex (p : Partitioner) (member : String) (index : Nat) : VirtualNode :=
  ⟨p.token (label member index).toUTF8, member⟩

/-- All virtual nodes of a member that has `factor` of them. -/
def placement (p : Partitioner) (factor : UInt16) (member : String) : List VirtualNode :=
  (List.range factor.toNat).map (ofIndex p member)

/-- How far `b` lies clockwise of `a`. -/
def distance (a b : VirtualNode) : UInt64 :=
  a.token.distance b.token

/-- `a` comes strictly before `b` in the order of virtual nodes. -/
def before (a b : VirtualNode) : Bool :=
  compare a b == .lt

instance : ToString VirtualNode where
  toString v := s!"VNode(token={v.token}, member={v.member})"

end VirtualNode

end RingRouting
