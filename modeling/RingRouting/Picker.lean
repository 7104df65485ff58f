import RingRouting.Balancer.Error
import RingRouting.Connection
import RingRouting.Metrics
import RingRouting.Ring.Lookup

/-!
# Pickers

A picker routes calls. It is a snapshot: it keeps the ring as it was when the picker was made. A
call may carry a key, and calls with equal keys then go to the same owners. A call without one, or
with an empty one, is routed by a random key. Chance is an argument, so that what may happen can be
told from what does.
-/

namespace RingRouting

/-- What is left to chance when a call is routed. -/
structure Chance where
  /-- The key of a call that carries none. -/
  key : ByteArray
  /-- Which of several owners is taken, counted around. -/
  index : Nat

/-- How calls are routed. -/
inductive Picker where
  /-- Over a ring, each key spread over that many owners. -/
  | ring (members : Ring Connection) (spread : UInt8)
  /-- Not at all, for that reason. -/
  | failing (error : BalancerError)

namespace Picker

/-- The key that a call is routed by, unless it is left to chance. -/
def givenKey? (key : Option ByteArray) : Option ByteArray :=
  key.filter (!·.isEmpty)

/-- Route one call, and count it. -/
def pick (p : Picker) (key : Option ByteArray) (chance : Chance) (m : Metrics) :
    Except BalancerError Connection × Metrics :=
  match p with
  | .failing e => (.error e, m.pickFailed)
  | .ring members spread =>
    match members.findN ((givenKey? key).getD chance.key) spread.toNat with
    | .error e => (.error (.unavailable e.message), m.pickFailed)
    | .ok owners =>
      let index := if 1 < spread ∧ 1 < owners.length then chance.index % owners.length else 0
      match owners[index]? with
      | some c => (.ok c, m.picked)
      | none => (.error .noConnection, m)

/-- All connections that a call may be routed to: the owners of its key, or any member. -/
def candidates (p : Picker) (key : Option ByteArray) : Except BalancerError (List Connection) :=
  match p with
  | .failing e => .error e
  | .ring members spread =>
    match givenKey? key with
    | some key => (members.findN key spread.toNat).mapError fun e => .unavailable e.message
    | none =>
      if members.isEmpty then .error (.unavailable RingError.empty.message) else .ok members.toList

/-- A one-line summary of a picker over a ring. -/
def summary (members : Ring Connection) (spread : UInt8) : String :=
  s!"RingPicker \x7b members: {members.size}, spread: {spread} \x7d"

end Picker

end RingRouting
