import RingRouting.Connectivity
import RingRouting.Picker
import RingRouting.Policy

/-!
# The balancer

A balancer holds one connection for each resolved address, and each connection stands on a ring.
What it is told arrives as callbacks, one at a time. A callback gives the balancer after it, the
actions that the transport saw in their order, and the error that the caller gets, if any. After
every change that matters the balancer publishes its state together with a picker.
-/

namespace RingRouting

/-- What a balancer does to its surroundings. -/
inductive Action where
  /-- A handle was made for an address. -/
  | dialed (c : Connection) (a : Address)
  /-- No handle could be made for an address. -/
  | refused (a : Address)
  /-- A handle was told to connect. -/
  | connect (id : Nat)
  /-- A handle was torn down. -/
  | closed (id : Nat)
  | published (state : Connectivity) (picker : Picker)
  /-- The number of ring members was taken down. -/
  | counted (members : Nat)

/-- The metrics after an action. -/
def Metrics.record (m : Metrics) : Action → Metrics
  | .published .. => { m with balancerUpdates := m.balancerUpdates + 1 }
  | .counted members => { m with ringMembers := some members }
  | _ => m

/-- A balancer. -/
structure Balancer where
  partitioner : Partitioner
  /-- The state of all connections together. -/
  state : Connectivity := .connecting
  /-- How calls are routed. -/
  picker : Picker := .failing .noConnection
  tally : Tally := {}
  /-- The connections that are held, by the addresses that they were made for. -/
  connections : Std.ExtTreeMap Address Connection := ∅
  /-- The states of the handles that are tracked. -/
  states : Std.ExtTreeMap Nat Connectivity := ∅
  policy : Option Policy := none
  /-- There is none before the first policy. -/
  ring : Option (Ring Connection) := none
  /-- The last resolver error since the last resolution. -/
  resolverError : Option BalancerError := none
  /-- The last connection error since the balancer was last ready. -/
  connectionError : Option BalancerError := none

/-- How a callback ends. -/
structure Outcome where
  balancer : Balancer
  actions : List Action := []
  error : Option BalancerError := none

/-- How a callback ends that did something else before. -/
def Outcome.after (o : Outcome) (actions : List Action) : Outcome :=
  { o with actions := actions ++ o.actions }

namespace Balancer

/-- How many connections are held. -/
def size (b : Balancer) : Nat :=
  b.connections.size

/-- The publication of the present state and picker. -/
def publication (b : Balancer) : Action :=
  .published b.state b.picker

/-- A one-line summary of what was published with a state. -/
def publicationSummary (state : Connectivity) : String :=
  "BalancerState \x7b connectivity_state: " ++ state.describe ++ ", .. \x7d"

/-- Fail all calls with what went wrong last. -/
def fail (b : Balancer) : Balancer :=
  { b with picker := .failing (.join b.connectionError b.resolverError) }

/-- Route calls as the state has it: over the ring, unless everything is failing. -/
def repick (b : Balancer) : Balancer :=
  match b.ring with
  | some members =>
    if b.state = .transientFailure then b.fail
    else { b with
      picker := .ring members ((b.policy.map (·.spread)).getD Policy.defaultSpread) }
  | none => b.fail

/-- Put a policy in force. Another number of virtual nodes rebuilds the ring with the same members;
the spread does not touch the ring. -/
def configure (b : Balancer) (p : Policy) : Except RingError Balancer :=
  match b.ring with
  | none => do
    let members ← Ring.new b.partitioner p.factor
    return { b with ring := some members, policy := some p }
  | some members =>
    if b.policy.map (·.factor) = some p.factor then .ok { b with policy := some p }
    else do
      let members ← members.rebuild p.factor
      return { b with ring := some members, policy := some p }

/-- Put the policy that came with a resolution in force, if one came, with its defaults. -/
def adopt (b : Balancer) (policy : Option Policy) : Except RingError Balancer :=
  match policy with
  | some p => b.configure p.withDefaults
  | none => .ok b

/-- Let go of the connection of an address: it is no longer tracked, its handle is torn down, and it
leaves the ring. -/
def release (b : Balancer) (a : Address) : Outcome :=
  match b.connections[a]? with
  | none => { balancer := b }
  | some c =>
    { balancer := { b with
        connections := b.connections.erase a
        states := b.states.erase c.id
        tally := match b.states[c.id]? with
          | some old => b.tally.record old .shutdown
          | none => b.tally
        ring := b.ring.map fun members =>
          match members.remove a.ringKey with
          | .ok (_, rest) => rest
          | .error _ => members }
      actions := [.closed c.id] }

/-- Let go of the connections of some addresses. -/
def releaseAll (b : Balancer) : List Address → Outcome
  | [] => { balancer := b }
  | a :: rest =>
    let o := b.release a
    (o.balancer.releaseAll rest).after o.actions

/-- Hold a connection that the ring took in, and track it as idle. -/
def hold (b : Balancer) (a : Address) (c : Connection) (members : Ring Connection) : Balancer :=
  { b with
    ring := some members
    states := b.states.insert c.id .idle
    tally := b.tally.record .shutdown .idle
    connections := b.connections.insert a c }

/-- Make connections for some addresses. The transport may refuse one, which is then left out; its
answer depends on how many handles it made since `made` was zero. A handle that the ring does not
take in is torn down again, and ends the callback. -/
def dialAll (dial : Nat → Address → Option Connection) (b : Balancer) (made : Nat) :
    List Address → Outcome
  | [] => { balancer := b }
  | a :: rest =>
    match dial made a with
    | none => (b.dialAll dial made rest).after [.refused a]
    | some c =>
      match b.ring with
      | none => { balancer := b, actions := [.dialed c a], error := some .noRing }
      | some members =>
        match members.add c with
        | .ok members =>
          ((b.hold a c members).dialAll dial (made + 1) rest).after [.dialed c a, .connect c.id]
        | .error e =>
          let failed := { b with picker := .failing (.ring e) }
          { balancer := failed
            actions := [.dialed c a, .closed c.id, failed.publication]
            error := some (.ring e) }

/-- Resolution failed. Without connections, everything is failing. Only then is anything published;
otherwise the picker goes on serving. -/
def failResolution (b : Balancer) (e : BalancerError) : Outcome :=
  let noted := { b with resolverError := some e }
  let failed :=
    if noted.connections.isEmpty then { noted with state := .transientFailure }.fail else noted
  { balancer := failed
    actions := if failed.state = .transientFailure then [failed.publication] else [] }

/-- What is done once the connections are those of the desired addresses. -/
def conclude (b : Balancer) (noAddresses : Bool) : Outcome :=
  let count := b.ring.toList.map fun members => Action.counted members.size
  if noAddresses then
    let o := b.failResolution (.resolver "produced zero addresses")
    { o.after count with error := some .badResolverState }
  else
    let repicked := b.repick
    { balancer := repicked, actions := count ++ [repicked.publication] }

/-- The addresses of connections that are no longer desired. -/
def stale (b : Balancer) (desired : Std.ExtTreeSet Address) : List Address :=
  b.connections.keys.filter (!desired.contains ·)

/-- Hold connections for exactly the desired addresses. Those that are no longer desired are
released first, so that a node which moved can enter the ring again under its key. -/
def reconcile (dial : Nat → Address → Option Connection) (b : Balancer)
    (desired : Std.ExtTreeSet Address) : Outcome :=
  let stale := b.stale desired
  let released := b.releaseAll stale
  let missing := desired.toList.filter (!released.balancer.connections.contains ·)
  let dialed := (released.balancer.dialAll dial 0 missing).after released.actions
  match dialed.error with
  | some _ => dialed
  | none =>
    let settled :=
      if stale.isEmpty && missing.isEmpty then dialed.balancer
      else { dialed.balancer with state := dialed.balancer.tally.aggregate }
    (settled.conclude desired.isEmpty).after dialed.actions

/-- A resolution came, and perhaps a policy with it. -/
def update (b : Balancer) (dial : Nat → Address → Option Connection) (addresses : List Address)
    (policy : Option Policy) : Outcome :=
  let cleared := { b with resolverError := none }
  match cleared.adopt policy with
  | .error e => { balancer := cleared, error := some (.ring e) }
  | .ok b =>
    if b.ring.isNone then
      { balancer := b.fail, actions := [b.fail.publication], error := some .noRing }
    else b.reconcile dial (.ofList addresses)

/-- Take down the new state of a tracked handle. -/
def track (b : Balancer) (id : Nat) (old new : Connectivity) (cause : Option BalancerError) :
    Balancer :=
  let tally := b.tally.record old new
  let connectionError :=
    if new = .transientFailure then
      some (cause.getD (.connection s!"{Connection.handle id} failed"))
    else b.connectionError
  { b with
    states := if new = .shutdown then b.states.erase id else b.states.insert id new
    tally
    state := tally.aggregate
    connectionError := if tally.aggregate = .ready then none else connectionError }

/-- The transport reports a state of a handle. Handles that are not tracked do not count. An idle
handle is told to connect again. A failing one stays failing until it is ready. -/
def report (b : Balancer) (id : Nat) (new : Connectivity) (cause : Option BalancerError) :
    Outcome :=
  match b.states[id]? with
  | none => { balancer := b }
  | some old =>
    let reconnect := if new = .idle then [Action.connect id] else []
    if old = .transientFailure ∧ (new = .connecting ∨ new = .idle) then
      { balancer := b, actions := reconnect }
    else
      let tracked := (b.track id old new cause).repick
      { balancer := tracked, actions := reconnect ++ [tracked.publication] }

/-- What a balancer is told. -/
inductive Callback where
  /-- A resolution came. The transport makes handles as `dial` says. -/
  | update (dial : Nat → Address → Option Connection) (addresses : List Address)
    (policy : Option Policy)
  /-- Resolution failed. -/
  | failResolution (e : BalancerError)
  /-- A handle changed its state. -/
  | report (id : Nat) (state : Connectivity) (cause : Option BalancerError)
  /-- The balancer is closed. The handles belong to the transport, so there is nothing to do. -/
  | close
  /-- The balancer is to leave idleness. Handles connect at once, so it never is idle. -/
  | exitIdle

/-- How a callback ends. -/
def handle (b : Balancer) : Callback → Outcome
  | .update dial addresses policy => b.update dial addresses policy
  | .failResolution e => b.failResolution e
  | .report id state cause => b.report id state cause
  | .close | .exitIdle => { balancer := b }

end Balancer

end RingRouting
