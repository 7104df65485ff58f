import RingRouting.Resolver.Step

/-!
# Running a resolver

The loops take turns. A loop that can go on is queued once, behind those that are queued already. In
its turn it goes on until it has nothing to do or has made as many steps as a turn admits; then it
is queued again, behind the other, so that a long run of changes does not keep a full fetch waiting.

After every batch of commands the loops run until both are at rest. Time passes only once they are,
and stops at each deadline on its way. At the moment that is waited for the next command comes
first: a loop whose deadline falls there is queued, and goes on after it.
-/

namespace RingRouting

/-- Where the changes of a new resolver come from. -/
inductive WatchSource where
  /-- A watch on the registry. -/
  | registry
  /-- What is pushed by hand, through a mailbox of that capacity. -/
  | manual (capacity : Nat)
  /-- The watch is refused, for that reason. -/
  | refused (reason : String)

namespace Resolver

/-- What can be done to a resolver and its registry from outside. -/
inductive Command where
  | register (n : Node)
  | deregister (id : String)
  | expire (ttl : Nat)
  /-- Push a change by hand. -/
  | push (c : Change)
  /-- End what is pushed by hand. -/
  | endWatch
  /-- Begin or end an outage of full fetches. -/
  | setOutage (reason : Option String)
  /-- Ask for a full fetch without waiting for the deadline. -/
  | resolveNow
  /-- Let time pass. -/
  | advance (time : Nat)
  | close
  /-- Let go of the resolver, which closes it. -/
  | release

/-- Why a resolver did not start, and how many full fetches were tried. -/
structure StartFailure where
  error : ResolutionError
  fetches : Nat

/-- Open the watch that a new resolver takes changes from. -/
def openFeed (source : WatchSource) (registry : Registry) (s : Selection) :
    Except ResolutionError (Feed × Registry) :=
  match source with
  | .registry =>
    let (watch, registry) := registry.watch s
    .ok (.registry watch, registry)
  | .manual capacity => .ok (.manual { capacity := max capacity 1 } false, registry)
  | .refused reason => .error (.watch s.service reason)

/-- A resolver over an open feed, after its first full fetch. Neither loop has run yet. -/
def ofFeed (settings : Settings) (feed : Feed) (registry : Registry) (outage : Option String) :
    Except ResolutionError Resolver := do
  let roster := Roster.ofList (← query registry outage settings.selection)
  return { settings, registry, feed, outage, roster, snapshot := roster.toList, fetches := 1 }

/-- The loops that can go on and are not queued yet are queued. -/
def wake (r : Resolver) : Resolver :=
  { r with ready := r.ready ++ [.apply, .refresh].filter fun l =>
      !r.ready.contains l && (r.step? l).isSome }

/-- How many steps a loop may make in one turn. -/
def turnLimit : Nat := 128

/-- Let a loop make up to `n` steps. -/
def turn (l : Loop) : Nat → Resolver → Resolver
  | 0, r => r
  | n + 1, r =>
    match r.step? l with
    | some next => turn l n next
    | none => r

/-- A turn makes no work. -/
theorem work_turn_le (l : Loop) (n : Nat) (r : Resolver) : (r.turn l n).work ≤ r.work := by
  induction n generalizing r with
  | zero => exact Nat.le_refl _
  | succ n ih =>
    rw [turn]
    split
    next next h => exact Nat.le_trans (ih next) (Nat.le_of_lt (work_lt_of_step? h))
    next => exact Nat.le_refl _

/-- Let the loops take turns until both are at rest. -/
def settle (r : Resolver) : Resolver :=
  match _ : r.ready with
  | [] => r
  | l :: rest =>
    match _ : r.step? l with
    | some next => { next.turn l (turnLimit - 1) with ready := rest }.wake.settle
    | none => { r with ready := rest }.settle
termination_by (r.work, r.ready.length)
decreasing_by
  · refine Prod.Lex.left _ _ (Nat.lt_of_le_of_lt ?_ (work_lt_of_step? ‹_›))
    exact work_turn_le l (turnLimit - 1) next
  · refine Prod.Lex.right _ ?_
    simp [*]

/-- Resolve a target: open the watch first and fetch afterwards, so that no change falls in
between. -/
def start (target : Target) (protocol : Protocol) (tags : List String) (interval : Nat)
    (answer : Consumer) (source : WatchSource) (registry : Registry)
    (outage : Option String) : Except StartFailure Resolver :=
  if target.scheme ≠ Target.ownScheme then
    .error ⟨.invalidTarget (toString target) .foreignScheme, 0⟩
  else if hinterval : interval = 0 then .error ⟨.zeroInterval, 0⟩
  else
    let selection := { service := target.endpoint, protocol, tags }
    match openFeed source registry selection with
    | .error e => .error ⟨e, 0⟩
    | .ok (feed, registry) =>
      let settings := ⟨selection, interval, Nat.pos_of_ne_zero hinterval, answer⟩
      match ofFeed settings feed registry outage with
      | .error e => .error ⟨e, 1⟩
      | .ok r => .ok r.wake.settle

/-- Let time pass until `target`, with at most `n` stops at the deadlines before it. The loops go on
at each stop; those whose deadline has come by `target` are queued. -/
def advanceTo (target : Nat) : Nat → Resolver → Resolver
  | 0, r => { r with now := target }.wake
  | n + 1, r =>
    if r.refreshing = .running ∧ r.deadline < target then
      advanceTo target n { r with now := r.deadline }.wake.settle
    else { r with now := target }.wake

/-- Let time pass. The loops come to rest before it does; no time at all does not make them go
on. -/
def advance (r : Resolver) (time : Nat) : Resolver :=
  if time = 0 then r
  else advanceTo (r.now + time) (time / r.settings.interval + 1) r.settle

/-- What a command does at once. Only a command to let time pass makes the loops go on. -/
def perform (r : Resolver) : Command → Resolver
  | .register n => { r with registry := r.registry.register r.now n }
  | .deregister id => { r with registry := r.registry.deregister id }
  | .expire ttl => { r with registry := (r.registry.expire r.now ttl).2 }
  | .push c =>
    match r.feed with
    | .manual m false => { r with feed := .manual (m.send c) false }
    | .manual _ true | .registry _ => r
  | .endWatch =>
    match r.feed with
    | .manual m _ => { r with feed := .manual m true }
    | .registry _ => r
  | .setOutage reason => { r with outage := reason }
  | .resolveNow =>
    if r.held then
      { r with requests := min (r.requests + 1) (if r.refreshing = .running then 2 else 1) }
    else r
  | .advance time => r.advance time
  | .close => if r.held then { r with closed := true } else r
  | .release => { r with closed := true, held := false }

/-- Give commands one after the other, with no loop going on in between unless time passes. -/
def batch (r : Resolver) (commands : List Command) : Resolver :=
  (commands.foldl (fun r c => (r.perform c).wake) r).settle

/-- Give one command. -/
def run (r : Resolver) (c : Command) : Resolver :=
  r.batch [c]

end Resolver

end RingRouting
