import RingRouting.Json.Reader
import RingRouting.Json.Writer
import RingRouting.Ring.Basic

/-!
# Addresses

An address is one endpoint to dial. Two addresses are the same endpoint only if they agree in every
part: a node that keeps its host and port but changes its identity is another endpoint.
-/

namespace RingRouting

/-- One resolved endpoint. -/
structure Address where
  /-- Host and port to dial. -/
  addr : String
  /-- The authority to ask for, usually empty. -/
  serverName : String := ""
  /-- The identity of the node behind the address, where it is known. -/
  id : Option String := none
deriving DecidableEq, Repr, Inhabited

namespace Address

instance : Ord Address where
  compare := compareLex (compareOn addr) (compareLex (compareOn serverName) (compareOn id))

instance : Std.TransOrd Address :=
  inferInstanceAs
    (Std.TransCmp (compareLex (compareOn addr) (compareLex (compareOn serverName) (compareOn id))))

instance : Std.LawfulEqOrd Address where
  eq_of_compare {a b} h := by
    obtain ⟨haddr, hrest⟩ := compareLex_eq_eq.mp h
    obtain ⟨hname, hid⟩ := compareLex_eq_eq.mp hrest
    have haddr : a.addr = b.addr := Std.LawfulEqOrd.eq_of_compare haddr
    have hname : a.serverName = b.serverName :=
      Std.LawfulEqOrd.eq_of_compare hname
    have hid : a.id = b.id := Std.LawfulEqOrd.eq_of_compare hid
    cases a
    cases b
    simp_all

/-- The key under which the address stands on the ring: the identity of the node if it is known and
not empty, the server name and the address otherwise. -/
def ringKey (a : Address) : String :=
  match a.id with
  | some id => if id = "" then a.serverName ++ a.addr else id
  | none => a.serverName ++ a.addr

instance : ToString Address where
  toString a :=
    match a.id with
    | some id => s!"{a.addr} ({id})"
    | none => a.addr

/-- All parts of the address, by name and quoted. -/
def describe (a : Address) : String :=
  let id := match a.id with
    | some id => s!"Some({Text.quote id})"
    | none => "None"
  "Address \x7b addr: " ++ Text.quote a.addr ++ ", server_name: " ++ Text.quote a.serverName ++
    ", id: " ++ id ++ " \x7d"

/-- The JSON text of an address. -/
def toJson (a : Address) : String :=
  Json.writeObject [
    ("addr", Json.writeString a.addr),
    ("server_name", Json.writeString a.serverName),
    ("id", match a.id with
      | some id => Json.writeString id
      | none => "null")]

/-- The address that a JSON value stands for. Only `addr` must be given; a null identity is none. -/
def ofJson? (j : Json) : Option Address := do
  let [addr, serverName, id] ← j.record? ["addr", "server_name", "id"] | none
  let addr ← (← addr).text?
  let serverName ← match serverName with
    | none => some ""
    | some value => value.text?
  let id ← match id with
    | none => some none
    | some .null => some none
    | some value => value.text?.map some
  return { addr, serverName, id }

end Address

end RingRouting
