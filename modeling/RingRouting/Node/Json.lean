import RingRouting.Node.Basic

/-!
# Nodes and changes as JSON

The fields of a node are `id`, `name` (its service), `host`, `port`, `type` (its protocol) and
`tags`. A node read without an identity gets a fresh one from the caller; no tags are written as no
field.
-/

namespace RingRouting

namespace Node

/-- The JSON text of a node. -/
def toJson (n : Node) : String :=
  let tags :=
    if n.tags.isEmpty then [] else [("tags", Json.writeArray (n.tags.map Json.writeString))]
  Json.writeObject ([
    ("id", Json.writeString n.id),
    ("name", Json.writeString n.service),
    ("host", Json.writeString n.host),
    ("port", Json.writeNat n.port.toNat),
    ("type", Json.writeString n.protocol.name)] ++ tags)

/-- The node that a JSON value stands for, under the identity `fresh` if it gives none. -/
def ofJson? (fresh : String) (j : Json) : Option Node := do
  let [id, service, host, port, protocol, tags] ←
    j.record? ["id", "name", "host", "port", "type", "tags"] | none
  let id ← match id with
    | none => some fresh
    | some value => value.text?
  let service ← (← service).text?
  let host ← (← host).text?
  let port ← (← port).natural? 65535
  let protocol ← Protocol.ofName? (← (← protocol).case?)
  let tags ← match tags with
    | none => some []
    | some value => value.texts?
  return { id, service, host, port := port.toUInt16, protocol, tags }

/-- The JSON text of a list of nodes. -/
def listToJson (nodes : List Node) : String :=
  Json.writeArray (nodes.map toJson)

/-- The nodes of a JSON array. The node at position `i` gets the identity `fresh i` if it has
none. -/
def listOfJson? (fresh : Nat → String) (j : Json) : Option (List Node) := do
  (← j.items?).zipIdx.mapM fun (item, i) => ofJson? (fresh i) item

end Node

namespace Change

/-- The JSON text of a change. -/
def toJson (c : Change) : String :=
  Json.writeObject [
    ("kind", Json.writeString c.kind.name),
    ("nodes", Node.listToJson c.nodes)]

/-- The change that a JSON value stands for. -/
def ofJson? (fresh : Nat → String) (j : Json) : Option Change := do
  let [kind, nodes] ← j.record? ["kind", "nodes"] | none
  let kind ← ChangeKind.ofName? (← (← kind).case?)
  let nodes ← Node.listOfJson? fresh (← nodes)
  return { kind, nodes }

end Change

end RingRouting
