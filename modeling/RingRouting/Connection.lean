import RingRouting.Address

/-!
# Connections

A connection is a handle that a transport gave out for an address. It stands on the ring under the
key of its address, so that a node keeps its place when it moves to another address.
-/

namespace RingRouting

/-- A handle on a connection. -/
structure Connection where
  /-- No two handles of one transport have the same number. -/
  id : Nat
  /-- What the handle dials. -/
  address : Address
deriving DecidableEq, Repr

namespace Connection

/-- The name of the handle with that number. -/
def handle (id : Nat) : String :=
  s!"subconn-{id}"

instance : Member Connection where
  key c := c.address.ringKey

end Connection

end RingRouting
