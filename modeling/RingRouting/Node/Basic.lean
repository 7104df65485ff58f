import RingRouting.Address

/-!
# Nodes

A node is one endpoint of a logical service, as a registry reports it. Nodes are values: a new
report about a node replaces the old one as a whole.
-/

namespace RingRouting

/-- The protocol that a node speaks. -/
inductive Protocol where
  | grpc
  | http
deriving DecidableEq, Repr, Inhabited

namespace Protocol

/-- The name of a protocol. -/
def name : Protocol → String
  | .grpc => "grpc"
  | .http => "http"

/-- The protocol of that name. -/
def ofName? : String → Option Protocol
  | "grpc" => some .grpc
  | "http" => some .http
  | _ => none

end Protocol

/-- One endpoint of a logical service. -/
structure Node where
  /-- The identity of the node, which stays the same when the node is reported anew. -/
  id : String
  /-- The logical service that the node belongs to. -/
  service : String
  host : String
  port : UInt16
  protocol : Protocol
  /-- Labels to select nodes by. -/
  tags : List String := []
deriving DecidableEq, Repr, Inhabited

/-- Which nodes someone asks for: those of one service that speak one protocol and carry all the
given tags. -/
structure Selection where
  service : String
  protocol : Protocol
  tags : List String := []
deriving DecidableEq, Repr, Inhabited

namespace Node

/-- The node under the identity `id`. An empty identity changes nothing. -/
def withId (n : Node) (id : String) : Node :=
  if id = "" then n else { n with id }

/-- Host and port of the node. -/
def endpoint (n : Node) : String :=
  s!"{n.host}:{n.port}"

/-- The node carries every one of the tags. -/
def hasTags (n : Node) (tags : List String) : Bool :=
  tags.all n.tags.contains

/-- The address of the node, identity included. -/
def address (n : Node) : Address :=
  { addr := n.endpoint, id := some n.id }

instance : ToString Node where
  toString n := s!"{n.service}[{n.id}]@{n.host}:{n.port}"

end Node

/-- The selection takes the node in. -/
def Selection.wants (s : Selection) (n : Node) : Bool :=
  n.service == s.service && n.protocol == s.protocol && n.hasTags s.tags

/-- What a change does with the nodes that it names. -/
inductive ChangeKind where
  /-- They joined, or were replaced. -/
  | add
  /-- They left. -/
  | remove
  /-- They are all there is, whatever was known before. -/
  | sync
deriving DecidableEq, Repr, Inhabited

namespace ChangeKind

/-- The name of a kind of change. -/
def name : ChangeKind → String
  | .add => "add"
  | .remove => "remove"
  | .sync => "sync"

/-- The kind of change of that name. -/
def ofName? : String → Option ChangeKind
  | "add" => some .add
  | "remove" => some .remove
  | "sync" => some .sync
  | _ => none

end ChangeKind

/-- A change of membership. -/
structure Change where
  kind : ChangeKind
  nodes : List Node
deriving DecidableEq, Repr, Inhabited

namespace Change

/-- One node joined. -/
def added (n : Node) : Change := ⟨.add, [n]⟩

/-- One node left. -/
def removed (n : Node) : Change := ⟨.remove, [n]⟩

end Change

end RingRouting
