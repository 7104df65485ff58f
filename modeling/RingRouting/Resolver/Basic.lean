import RingRouting.Metrics
import RingRouting.Registry
import RingRouting.Resolver.Error
import RingRouting.Roster

/-!
# Resolvers

A resolver keeps a consumer informed of the addresses of one selection of nodes. Two loops run side
by side. The one that applies takes changes from a watch and full node lists from the other loop,
and pushes the complete address list to the consumer after each of them. The one that refreshes
fetches the full node list every `interval` ticks, or when asked, so that a change which the watch
lost is made good. Only so many full node lists may wait for the loop that applies; the loop that
refreshes waits until the next one fits, and it ends when the other loop has.

A resolver is a value: its state, the registry that it watches, and the record of what its consumer
was given.
-/

namespace RingRouting

/-- What a consumer makes of an address list. -/
inductive Verdict where
  | accepted
  | rejected
  /-- The consumer fails, and the loop that called it ends. -/
  | crashed
deriving DecidableEq, Repr

/-- A consumer: what it makes of an address list, given those that it got before, the newest first.
It may go by their number alone, so that whatever a consumer with a state of its own makes of the
lists in a run, one of these makes the same of them. -/
abbrev Consumer : Type :=
  List (List Address) → List Address → Verdict

/-- Where a resolver takes changes from. -/
inductive Feed where
  /-- A watch on the registry, by its number. -/
  | registry (watch : Nat)
  /-- A mailbox of its own, and whether it will get nothing more. -/
  | manual (mailbox : Mailbox Change) (ended : Bool)

/-- How far a loop has come. -/
inductive Phase where
  /-- It has not run yet. -/
  | starting
  | running
  | ended
deriving DecidableEq, Repr

/-- How far the loop that refreshes has come. -/
inductive RefreshPhase where
  /-- It has not run yet. -/
  | starting
  /-- It waits for a deadline or a request. -/
  | running
  /-- It waits until it can hand over the full node list that it fetched last. -/
  | sending (nodes : List Node)
  | ended
deriving DecidableEq, Repr

/-- How far the loop has come, wherever it is on its way. -/
def RefreshPhase.phase : RefreshPhase → Phase
  | starting => .starting
  | running | sending _ => .running
  | ended => .ended

/-- The loops of a resolver. -/
inductive Loop where
  | apply
  | refresh
deriving DecidableEq, Repr

/-- What a resolver is to do. The time is counted in milliseconds. -/
structure Settings where
  selection : Selection
  /-- The time from one full fetch to the next. -/
  interval : Nat
  interval_pos : 0 < interval
  answer : Consumer

/-- A resolver. -/
structure Resolver where
  settings : Settings
  registry : Registry
  feed : Feed
  /-- Why full fetches fail at present, if they do. -/
  outage : Option String
  now : Nat := 0
  /-- What was applied so far. -/
  roster : Roster
  /-- The nodes as of the last push. -/
  snapshot : List Node
  applying : Phase := .starting
  /-- The feed may still bring changes. -/
  watchOpen : Bool := true
  /-- Full node lists that were fetched and not yet applied, the oldest first. -/
  syncs : List (List Node) := []
  refreshing : RefreshPhase := .starting
  /-- When the next full fetch is due. -/
  deadline : Nat := 0
  /-- How many full fetches were asked for and not yet begun. -/
  requests : Nat := 0
  closed : Bool := false
  /-- Someone still holds the resolver. -/
  held : Bool := true
  /-- The loops that can go on, in the order in which they will. -/
  ready : List Loop := []
  /-- How many full fetches there were, with the one at the start and the failed ones. -/
  fetches : Nat
  /-- What was pushed to the consumer, the newest first. -/
  updates : List (List Address) := []
  /-- What was reported to the consumer, the newest first. -/
  errors : List ResolutionError := []

namespace Resolver

/-- The time between full fetches when nothing else is said. -/
def defaultInterval : Nat := 60000

/-- How many full node lists may wait for the loop that applies. -/
def syncCapacity : Nat := 4

/-- Fetch the nodes of a selection from the registry, unless there is an outage. -/
def query (registry : Registry) (outage : Option String) (s : Selection) :
    Except ResolutionError (List Node) :=
  match outage with
  | some reason => .error (.query s.service reason)
  | none => .ok (registry.select s)

/-- The number of changes that wait in the feed. -/
def pending (r : Resolver) : Nat :=
  match r.feed with
  | .registry watch => ((r.registry.mailbox? watch).map (·.items.length)).getD 0
  | .manual m _ => m.items.length

/-- The feed will bring nothing after what waits in it. -/
def feedEnded (r : Resolver) : Bool :=
  match r.feed with
  | .registry _ => false
  | .manual _ ended => ended

/-- Take the oldest change out of the feed. -/
def receive? (r : Resolver) : Option (Change × Resolver) :=
  match r.feed with
  | .registry watch =>
    (r.registry.receive? watch).map fun (change, registry) => (change, { r with registry })
  | .manual m ended =>
    m.receive?.map fun (change, m) => (change, { r with feed := .manual m ended })

/-- End the loop that applies. What it had not taken yet is lost, and nothing more is kept for
it. -/
def stopApplying (r : Resolver) : Resolver :=
  match r.feed with
  | .registry watch =>
    { r with applying := .ended, syncs := [], registry := r.registry.unwatch watch }
  | .manual m ended => { r with applying := .ended, syncs := [], feed := .manual m.close ended }

/-- Take down what goes to the consumer: the snapshot and the complete address list. -/
def noteUpdate (r : Resolver) : Resolver :=
  { r with snapshot := r.roster.toList, updates := r.roster.addresses :: r.updates }

/-- Push the complete address list, also when it did not change. What the consumer makes of it
changes nothing, unless it crashes. -/
def publish (r : Resolver) : Resolver :=
  if r.settings.answer r.updates r.roster.addresses = .crashed then r.noteUpdate.stopApplying
  else r.noteUpdate

/-- Apply a change and push the result. -/
def apply (r : Resolver) (c : Change) : Resolver :=
  { r with roster := r.roster.apply c }.publish

/-- The loop that refreshes hands a full node list to the loop that applies. If that loop is gone,
this one ends too; if no more lists may wait for it, this one waits. -/
def handOver (r : Resolver) (nodes : List Node) : Resolver :=
  if r.applying = .ended then { r with refreshing := .ended }
  else if r.syncs.length < syncCapacity then
    { r with refreshing := .running, syncs := r.syncs ++ [nodes] }
  else { r with refreshing := .sending nodes }

/-- Fetch the full node list and hand it over. A failed fetch is reported and changes nothing. -/
def refetch (r : Resolver) : Resolver :=
  match query r.registry r.outage r.settings.selection with
  | .ok nodes => { r with fetches := r.fetches + 1 }.handOver nodes
  | .error e => { r with fetches := r.fetches + 1, errors := e :: r.errors }

/-- What the resolver counted. -/
def metrics (r : Resolver) : Metrics :=
  { resolverUpdates := r.updates.length, resyncFailures := r.errors.length }

/-- The nodes as of the last push, as long as someone holds the resolver. -/
def nodes? (r : Resolver) : Option (List Node) :=
  if r.held then some r.snapshot else none

/-- Whether the resolver is closed, as long as someone holds it. -/
def isClosed? (r : Resolver) : Option Bool :=
  if r.held then some r.closed else none

end Resolver

end RingRouting
