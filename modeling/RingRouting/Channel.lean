import RingRouting.Balancer.Basic
import RingRouting.Resolver.Error

/-!
# A balanced channel

A channel is a balancer over a transport whose connections are ready as soon as they are asked to
connect. The requests are queued while the balancer is in a callback, and answered one after the
other once it is out of it.
-/

namespace RingRouting

/-- A balancer together with its transport. -/
structure Channel where
  balancer : Balancer
  policy : Policy
  /-- The number of the next handle. -/
  nextId : Nat := 0
  /-- The handles that are not torn down. -/
  live : Std.ExtTreeMap Nat Connection := ∅
  /-- The handles that are to connect, the first one first. -/
  queue : List Nat := []
  /-- What the balancer published last. -/
  published : Option (Connectivity × Picker) := none
  metrics : Metrics := {}

namespace Channel

/-- A channel without connections. -/
def new (p : Partitioner) (policy : Policy) : Channel :=
  { balancer := { partitioner := p }, policy }

/-- The handle for the next but `made` of a callback. No address is refused. -/
def dial (ch : Channel) (made : Nat) (a : Address) : Option Connection :=
  some ⟨ch.nextId + made, a⟩

/-- What an action of the balancer does to the transport. -/
def perform (ch : Channel) (action : Action) : Channel :=
  let ch := { ch with metrics := ch.metrics.record action }
  match action with
  | .dialed c _ => { ch with nextId := ch.nextId + 1, live := ch.live.insert c.id c }
  | .refused _ | .counted _ => ch
  | .connect id => { ch with queue := ch.queue ++ [id] }
  | .closed id => { ch with live := ch.live.erase id }
  | .published state picker => { ch with published := some (state, picker) }

/-- The channel after a callback. -/
def follow (ch : Channel) (o : Outcome) : Channel :=
  o.actions.foldl perform { ch with balancer := o.balancer }

/-- The transport reports a state of a handle. -/
def report (ch : Channel) (id : Nat) (state : Connectivity) : Channel :=
  ch.follow (ch.balancer.report id state none)

/-- Answer up to `n` requests to connect. A handle that was torn down in the meantime is passed
over. -/
def settle : Nat → Channel → Channel
  | 0, ch => ch
  | n + 1, ch =>
    match ch.queue with
    | [] => ch
    | id :: rest =>
      let ch := { ch with queue := rest }
      if ch.live.contains id then
        settle n ((ch.report id .connecting).report id .ready)
      else settle n ch

/-- Take the addresses of a resolution. -/
def update (ch : Channel) (addresses : List Address) : Option BalancerError × Channel :=
  let o := ch.balancer.update ch.dial addresses (some ch.policy)
  let followed := ch.follow o
  (o.error, settle followed.queue.length followed)

/-- What the resolver makes of an update. -/
def accept (ch : Channel) (addresses : List Address) : Except ResolutionError Unit × Channel :=
  let (error, ch) := ch.update addresses
  match error with
  | none => (.ok (), ch)
  | some e => (.error (.rejected e.message), ch)

/-- Take the error of a resolution. -/
def reportError (ch : Channel) (e : ResolutionError) : Channel :=
  ch.follow (ch.balancer.failResolution (.resolver e.message))

/-- The state that was published last, if it says more than that connecting has begun. -/
def settled? (ch : Channel) : Option Connectivity :=
  (ch.published.map (·.1)).filter fun state => state = .ready ∨ state = .transientFailure

/-- Route one call with the picker that was published last. -/
def pick (ch : Channel) (key : ByteArray) (chance : Chance) :
    Except BalancerError Connection × Channel :=
  match ch.published with
  | none => (.error .noConnection, ch)
  | some (_, picker) =>
    let (result, metrics) := picker.pick (some key) chance ch.metrics
    (result, { ch with metrics })

end Channel

/-- A one-line summary of a connection that a channel's transport was picked for a call. -/
def Connection.pickSummary (c : Connection) : String :=
  "PickResult \x7b sub_conn: SimSubConn \x7b id: SubConnId(" ++ toString c.id ++ "), address: " ++
    c.address.describe ++ " \x7d \x7d"

end RingRouting
