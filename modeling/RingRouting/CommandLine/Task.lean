import RingRouting.Channel
import RingRouting.CommandLine.Arguments
import RingRouting.Json.Reader
import RingRouting.Node.Json
import RingRouting.Resolver.Run

/-!
# Tasks

What the tasks of the command line do. A route is found the way a client finds it: the nodes of the
file are registered, a resolver resolves the service, and a channel over its addresses routes each
key.
-/

namespace RingRouting.CommandLine

/-- Why a task fails. -/
inductive TaskError where
  | unreadable (path : String)
  | unparsable (path : String)
  | unresolved (service : String) (cause : ResolutionError)
  | timedOut
  | noUsableNodes (service : String)
  | unrouted (key : String) (cause : BalancerError)
  | invalidLogLevel (level : String)
deriving DecidableEq, Repr

/-- The text of a task error, without its cause. -/
def TaskError.message : TaskError → String
  | .unreadable path => s!"reading {path}"
  | .unparsable path => s!"parsing nodes from {path}"
  | .unresolved service _ => s!"resolving {service}"
  | .timedOut => "timed out waiting for the balancer"
  | .noUsableNodes service => s!"no usable nodes for service {service}"
  | .unrouted key _ => s!"routing key {key}"
  | .invalidLogLevel level => s!"invalid --log-level {level}: not a filter"

/-- What a task may use of the world around it. -/
structure Surroundings where
  /-- The text of a file, if it can be read. -/
  fileText : String → Option String
  /-- Identities for the nodes of a file that have none, by their positions. -/
  freshId : Nat → String
  /-- What is left to chance when a key is routed, by its position. -/
  chance : Nat → Chance

/-- The nodes that a file lists. -/
def loadNodes (s : Surroundings) (path : String) : Except TaskError (List Node) :=
  match s.fileText path with
  | none => .error (.unreadable path)
  | some text =>
    match (Json.parse? text).bind (Node.listOfJson? s.freshId) with
    | none => .error (.unparsable path)
    | some nodes => .ok nodes

/-- The channel of a client that resolved a service among some nodes. -/
def connect (nodes : List Node) (service : String) (tags : List String) (policy : Policy) :
    Except TaskError Channel :=
  let registry := nodes.foldl (fun (r : Registry) n => r.register 0 n) {}
  match Resolver.start (.ofService service) .grpc tags Resolver.defaultInterval
    (fun _ _ => .accepted)
      .registry registry none with
  | .error failure => .error (.unresolved service failure.error)
  | .ok resolver =>
    .ok (resolver.updates.foldr (fun addresses ch => (ch.accept addresses).2)
      (.new .sip policy.withDefaults))

/-- The line for a key that was routed to an address. -/
def routeLine (key : String) (a : Address) : String :=
  "\t".intercalate [key, a.addr, a.id.getD "-"]

/-- Route keys over the nodes of a service that a file lists. -/
def route (s : Surroundings) (path service : String) (tags keys : List String) (policy : Policy) :
    Except TaskError (List String) := do
  let channel ← connect (← loadNodes s path) service tags policy
  match channel.settled? with
  | none => throw .timedOut
  | some .ready =>
    keys.zipIdx.mapM fun (key, i) =>
      match (channel.pick key.toUTF8 (s.chance i)).1 with
      | .ok c => .ok (routeLine key c.address)
      | .error e => .error (.unrouted key e)
  | some _ => throw (.noUsableNodes service)

/-- The lines that a task prints. -/
def Task.run (s : Surroundings) : Task → Except TaskError (List String)
  | .serviceConfig policy => .ok [policy.withDefaults.serviceConfig]
  | .route path service tags keys policy =>
    RingRouting.CommandLine.route s path service tags keys policy

end RingRouting.CommandLine
