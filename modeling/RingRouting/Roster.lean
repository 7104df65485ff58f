import RingRouting.Node.Basic
import Std.Data.ExtTreeMap

/-!
# Rosters

A roster is what is currently known about one selection of nodes: at most one node for each
identity, in the order of the identities, so that the same membership always gives the same list.
-/

namespace RingRouting

/-- Nodes by their identities. -/
structure Roster where
  nodes : Std.ExtTreeMap String Node := ∅

namespace Roster

/-- Add or replace one node. -/
def insert (r : Roster) (n : Node) : Roster :=
  ⟨r.nodes.insert n.id n⟩

/-- Take out the node with the identity of `n`. -/
def erase (r : Roster) (n : Node) : Roster :=
  ⟨r.nodes.erase n.id⟩

/-- The roster of a list of nodes. Of two nodes with one identity the later one counts. -/
def ofList (nodes : List Node) : Roster :=
  nodes.foldl insert {}

/-- The roster after a change. -/
def apply (r : Roster) (c : Change) : Roster :=
  match c.kind with
  | .add => c.nodes.foldl insert r
  | .remove => c.nodes.foldl erase r
  | .sync => ofList c.nodes

/-- All nodes, in the order of their identities. -/
def toList (r : Roster) : List Node :=
  r.nodes.values

/-- The addresses of all nodes, in the order of the identities. -/
def addresses (r : Roster) : List Address :=
  r.toList.map Node.address

/-- The node with that identity. -/
def get? (r : Roster) (id : String) : Option Node :=
  r.nodes[id]?

/-- How many nodes there are. -/
def size (r : Roster) : Nat :=
  r.nodes.size

/-- There are no nodes. -/
def isEmpty (r : Roster) : Bool :=
  r.nodes.isEmpty

end Roster

end RingRouting
