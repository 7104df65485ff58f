import RingRouting.Balancer.Error
import RingRouting.Json.Reader
import RingRouting.Json.Writer

/-!
# The balancing policy

The policy says how many virtual nodes a member has and among how many owners a call may be spread.
In JSON it is an object with the fields `replicationFactor` and `spread`. A field that is zero or
missing stands for its default, and one that is zero is not written.
-/

namespace RingRouting

/-- Settings of the balancer. -/
structure Policy where
  /-- Virtual nodes per member. -/
  factor : UInt16
  /-- How many owners of a key a call is spread over. -/
  spread : UInt8
deriving DecidableEq, Repr

namespace Policy

/-- The name of the policy in a service config. -/
def name : String := "consistent-hashring"

/-- The number of owners that a call is spread over when nothing says otherwise. -/
def defaultSpread : UInt8 := 1

/-- The policy that holds when nothing says otherwise. -/
def default : Policy := ⟨Ring.defaultFactor, defaultSpread⟩

/-- Defaults in the place of zeros. -/
def withDefaults (p : Policy) : Policy where
  factor := if p.factor = 0 then Ring.defaultFactor else p.factor
  spread := if p.spread = 0 then defaultSpread else p.spread

/-- The JSON text of a policy, without what is zero. -/
def toJson (p : Policy) : String :=
  let factor :=
    if p.factor = 0 then [] else [("replicationFactor", Json.writeNat p.factor.toNat)]
  let spread := if p.spread = 0 then [] else [("spread", Json.writeNat p.spread.toNat)]
  Json.writeObject (factor ++ spread)

/-- The service config that selects this policy. -/
def serviceConfig (p : Policy) : String :=
  Json.writeObject [
    ("loadBalancingConfig", Json.writeArray [Json.writeObject [(name, p.toJson)]])]

/-- The policy that a JSON value stands for, before the defaults. -/
def ofJson? (j : Json) : Option Policy := do
  let [factor, spread] ← j.record? ["replicationFactor", "spread"] | none
  let factor ← match factor with
    | none => some 0
    | some value => value.natural? 65535
  let spread ← match spread with
    | none => some 0
    | some value => value.natural? 255
  return { factor := factor.toUInt16, spread := spread.toUInt8 }

/-- The policy that a JSON text stands for. -/
def parse (text : String) : Except BalancerError Policy :=
  match (Json.parse? text).bind ofJson? with
  | some p => .ok p.withDefaults
  | none => .error (.invalidPolicy s!"unable to parse policy config {text}: not a policy")

end Policy

end RingRouting
