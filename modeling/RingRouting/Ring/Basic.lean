import RingRouting.Text.Quoted
import RingRouting.VirtualNode
import Std.Data.ExtTreeMap
import Std.Data.ExtTreeSet

/-!
# The hash ring

A ring holds members under their keys and, for each of them, `factor` virtual nodes placed by its
partitioner. It is a plain value. Both containers are extensional: two rings with the same virtual
nodes and the same members are equal, whatever led to them.
-/

namespace RingRouting

/-- What can stand on a ring. The key alone decides where: two members with the same key are the
same member to the ring. -/
class Member (μ : Type) where
  key : μ → String

instance : Member String where
  key := id

/-- Why a ring refuses an operation. -/
inductive RingError where
  | zeroFactor
  | memberExists (key : String)
  | memberUnknown (key : String)
  | empty
deriving DecidableEq, Repr

/-- The text of a ring error. -/
def RingError.message : RingError → String
  | .zeroFactor => "replication factor must be greater than zero"
  | .memberExists key => s!"member {key} already exists in the ring"
  | .memberUnknown key => s!"member {key} not found in the ring"
  | .empty => "hash ring is empty"

/-- A consistent-hash ring over members of type `μ`. -/
structure Ring (μ : Type) where
  partitioner : Partitioner
  /-- How many virtual nodes each member has. -/
  factor : UInt16
  factor_ne_zero : factor ≠ 0
  vnodes : Std.ExtTreeSet VirtualNode
  members : Std.ExtTreeMap String μ

namespace Ring

/-- How many virtual nodes a member has when nothing says otherwise. -/
def defaultFactor : UInt16 := 100

variable {μ : Type}

/-- A ring without members. A member must have at least one virtual node. -/
def new (p : Partitioner) (factor : UInt16) : Except RingError (Ring μ) :=
  if h : factor = 0 then .error .zeroFactor
  else .ok ⟨p, factor, h, ∅, ∅⟩

/-- There is a member under `key`. -/
def contains (r : Ring μ) (key : String) : Bool :=
  r.members.contains key

/-- The member under `key`. -/
def get? (r : Ring μ) (key : String) : Option μ :=
  r.members[key]?

/-- The virtual nodes that a member under `key` has on this ring. -/
def placement (r : Ring μ) (key : String) : List VirtualNode :=
  VirtualNode.placement r.partitioner r.factor key

/-- Place a member on the ring. A key that is taken is refused. -/
def add [Member μ] (r : Ring μ) (m : μ) : Except RingError (Ring μ) :=
  let key := Member.key m
  if r.contains key then .error (.memberExists key)
  else .ok { r with
    vnodes := (r.placement key).foldl .insert r.vnodes
    members := r.members.insert key m }

/-- Take the member under `key` off the ring, together with its virtual nodes. -/
def remove (r : Ring μ) (key : String) : Except RingError (μ × Ring μ) :=
  match r.get? key with
  | none => .error (.memberUnknown key)
  | some m => .ok (m, { r with
    vnodes := (r.placement key).foldl .erase r.vnodes
    members := r.members.erase key })

/-- All members, in the order of their keys. -/
def toList (r : Ring μ) : List μ :=
  r.members.values

/-- Place members one after the other, up to the first that is refused. -/
def addAll [Member μ] (r : Ring μ) (ms : List μ) : Except RingError (Ring μ) :=
  ms.foldlM add r

/-- A ring with another number of virtual nodes per member and the same members. -/
def rebuild [Member μ] (r : Ring μ) (factor : UInt16) : Except RingError (Ring μ) := do
  let fresh ← new r.partitioner factor
  fresh.addAll r.toList

/-- How many members the ring has. -/
def size (r : Ring μ) : Nat :=
  r.members.size

/-- How many virtual nodes the ring has. Virtual nodes that coincide in token and member count
once. -/
def vnodeCount (r : Ring μ) : Nat :=
  r.vnodes.size

/-- The ring has no members. -/
def isEmpty (r : Ring μ) : Bool :=
  r.members.isEmpty

/-- A one-line summary of the ring. -/
def summary (r : Ring μ) : String :=
  "HashRing \x7b partitioner: " ++ Text.quote r.partitioner.name ++
    s!", replication_factor: {r.factor}, members: {r.size}, vnodes: {r.vnodeCount}" ++ " \x7d"

end Ring

end RingRouting
