import RingRouting.Proofs.Balancer.Soundness

/-!
# The steps that callbacks are made of

A callback changes a balancer in several steps: it lets go of one connection after the other, asks
the transport for handles one after the other, and takes down what it makes of all that. The steps
are few, and each says all that it does to the balancer and to its surroundings. Main statement:
`steps_handle`, that every callback is a sequence of them. So what each step keeps is kept by all
callbacks.
-/

namespace RingRouting

@[simp] theorem Outcome.balancer_after (o : Outcome) (actions : List Action) :
    (o.after actions).balancer = o.balancer := rfl

@[simp] theorem Outcome.actions_after (o : Outcome) (actions : List Action) :
    (o.after actions).actions = actions ++ o.actions := rfl

@[simp] theorem Outcome.error_after (o : Outcome) (actions : List Action) :
    (o.after actions).error = o.error := rfl

namespace Balancer

/-- One step of a balancer, with the actions that it takes. -/
inductive Step : Balancer → List Action → Balancer → Prop
  /-- A policy is put in force. -/
  | adopt {b b' : Balancer} {policy : Option Policy} (h : b.adopt policy = .ok b') : Step b [] b'
  /-- The connection of an address is let go of. -/
  | release {b : Balancer} {a : Address} {c : Connection} (hheld : b.connections[a]? = some c) :
      Step b [.closed c.id] (b.release a).balancer
  /-- The transport makes no handle. -/
  | refuse (b : Balancer) (a : Address) : Step b [.refused a] b
  /-- The transport makes a handle, and the ring takes it in. -/
  | hold {b : Balancer} {a : Address} {c : Connection} {members members' : Ring Connection}
      (hring : b.ring = some members) (hadd : members.add c = .ok members') :
      Step b [.dialed c a, .connect c.id] (b.hold a c members')
  /-- The transport makes a handle, which the ring does not take in. -/
  | reject {b : Balancer} {a : Address} {c : Connection} {members : Ring Connection} {e : RingError}
      (hring : b.ring = some members) (hadd : members.add c = .error e) :
      Step b [.dialed c a, .closed c.id] b
  /-- The new state of a tracked handle is taken down. -/
  | track {b : Balancer} {id : Nat} {old : Connectivity} (hold : b.states[id]? = some old)
      (new : Connectivity) (cause : Option BalancerError) : Step b [] (b.track id old new cause)
  /-- A tracked handle is told to connect again. -/
  | reconnect {b : Balancer} {id : Nat} {old : Connectivity} (hold : b.states[id]? = some old) :
      Step b [.connect id] b
  /-- Something else than the holdings changes, such as the picker. -/
  | settle {b b' : Balancer} (h : b'.holdings = b.holdings) : Step b [] b'
  | publish (b : Balancer) : Step b [b.publication] b
  | count (b : Balancer) (members : Nat) : Step b [.counted members] b

/-- Steps one after the other, with the actions that they take. -/
inductive Steps : Balancer → List Action → Balancer → Prop
  | refl (b : Balancer) : Steps b [] b
  | cons {b b' b'' : Balancer} {actions rest : List Action} (h : Step b actions b')
      (hrest : Steps b' rest b'') : Steps b (actions ++ rest) b''

variable {b b' b'' : Balancer} {actions actions' : List Action}

theorem Step.steps (h : Step b actions b') : Steps b actions b' := by
  have hsteps := Steps.cons h (.refl b')
  rwa [List.append_nil] at hsteps

theorem Steps.trans (h : Steps b actions b') (h' : Steps b' actions' b'') :
    Steps b (actions ++ actions') b'' := by
  induction h with
  | refl => exact h'
  | cons h _ ih =>
    rw [List.append_assoc]
    exact .cons h (ih h')

/-- A step that takes no action, and others after it. -/
theorem Step.followedBy (h : Step b [] b') (hrest : Steps b' actions b'') : Steps b actions b'' :=
  .cons h hrest

/-! ## The parts of an update -/

/-- Connections are let go of one step at a time. -/
theorem steps_releaseAll (b : Balancer) (as : List Address) :
    Steps b (b.releaseAll as).actions (b.releaseAll as).balancer := by
  induction as generalizing b with
  | nil => exact .refl b
  | cons a rest ih =>
    refine Steps.trans ?_ (ih _)
    cases hheld : b.connections[a]? with
    | none =>
      simp only [Balancer.release, hheld]
      exact .refl b
    | some c =>
      have hstep := Step.release hheld
      simp only [Balancer.release, hheld] at hstep ⊢
      exact hstep.steps

/-- On the way there is a ring, so that each handle is either held or torn down again. -/
theorem steps_dialAll (dial : Nat → Address → Option Connection) (as : List Address) {b : Balancer}
    {members : Ring Connection} (hring : b.ring = some members) (made : Nat) :
    Steps b (b.dialAll dial made as).actions (b.dialAll dial made as).balancer := by
  induction as generalizing b members made with
  | nil => exact .refl b
  | cons a rest ih =>
    unfold Balancer.dialAll
    cases dial made a with
    | none => exact .cons (.refuse b a) (ih hring made)
    | some c =>
      simp only [hring]
      cases hadd : members.add c with
      | ok members' => exact .cons (.hold hring hadd) (ih rfl (made + 1))
      | error e =>
        refine .cons (.reject hring hadd) (Step.followedBy (.settle ?_) (Step.publish _).steps)
        rw [holdings, holdings, hring]

theorem steps_failResolution (b : Balancer) (e : BalancerError) :
    Steps b (b.failResolution e).actions (b.failResolution e).balancer := by
  have hpublish (b' : Balancer) :
      Steps b' (if b'.state = .transientFailure then [b'.publication] else []) b' := by
    split
    next => exact (Step.publish b').steps
    next => exact .refl b'
  exact Step.followedBy (.settle (b.holdings_failResolution e)) (hpublish _)

theorem steps_conclude (b : Balancer) (noAddresses : Bool) :
    Steps b (b.conclude noAddresses).actions (b.conclude noAddresses).balancer := by
  have hcount : Steps b (b.ring.toList.map fun members => Action.counted members.size) b := by
    cases b.ring with
    | none => exact .refl b
    | some members => exact (Step.count b members.size).steps
  unfold conclude
  split
  next => exact hcount.trans (b.steps_failResolution _)
  next => exact hcount.trans (Step.followedBy (.settle b.holdings_repick) (Step.publish _).steps)

/-- The ring stays there, whatever leaves it. -/
theorem isSome_ring_releaseAll (as : List Address) (b : Balancer) :
    (b.releaseAll as).balancer.ring.isSome = b.ring.isSome := by
  induction as generalizing b with
  | nil => rfl
  | cons a rest ih =>
    have hrelease : (b.release a).balancer.ring.isSome = b.ring.isSome := by
      unfold release
      split
      next => rfl
      next => exact Option.isSome_map
    exact (ih _).trans hrelease

theorem steps_reconcile (dial : Nat → Address → Option Connection) {b : Balancer}
    (desired : Std.ExtTreeSet Address) (hring : b.ring.isSome) :
    Steps b (b.reconcile dial desired).actions (b.reconcile dial desired).balancer := by
  have hreleased := b.steps_releaseAll (b.stale desired)
  rw [← isSome_ring_releaseAll (b.stale desired)] at hring
  obtain ⟨members, hring⟩ := Option.isSome_iff_exists.mp hring
  have hdialed := hreleased.trans (steps_dialAll dial (desired.toList.filter
    (!(b.releaseAll (b.stale desired)).balancer.connections.contains ·)) hring 0)
  unfold Balancer.reconcile
  dsimp only
  split
  next => exact hdialed
  next =>
    -- the state of all connections is taken down before the rest
    refine hdialed.trans (Step.followedBy (.settle ?_) (steps_conclude _ _))
    split <;> rfl

/-! ## Callbacks -/

/-- An update, in steps. -/
theorem steps_update (b : Balancer) (dial : Nat → Address → Option Connection)
    (addresses : List Address) (policy : Option Policy) :
    Steps b (b.update dial addresses policy).actions (b.update dial addresses policy).balancer := by
  have hcleared : Step b [] { b with resolverError := none } := .settle rfl
  unfold Balancer.update
  dsimp only
  split
  next => exact hcleared.steps
  next b' hadopt =>
    refine hcleared.followedBy (Step.followedBy (.adopt hadopt) ?_)
    split
    next => exact Step.followedBy (.settle b'.holdings_fail) (Step.publish _).steps
    next hring =>
      rw [Option.isNone_iff_eq_none, ← ne_eq, Option.ne_none_iff_isSome] at hring
      exact steps_reconcile dial _ hring

/-- What becomes of a report. -/
inductive Reported (b : Balancer) (id : Nat) (new : Connectivity) (cause : Option BalancerError) :
    Outcome → Prop
  /-- The handle is not tracked. -/
  | pass (hnone : b.states[id]? = none) : Reported b id new cause { balancer := b }
  /-- The handle is failing, and stays so until it is ready. -/
  | skip {old : Connectivity} (hold : b.states[id]? = some old)
      (hstays : old = .transientFailure ∧ (new = .connecting ∨ new = .idle)) :
      Reported b id new cause
        { balancer := b, actions := if new = .idle then [.connect id] else [] }
  /-- The report counts. -/
  | record {old : Connectivity} (hold : b.states[id]? = some old)
      (hcounts : ¬(old = .transientFailure ∧ (new = .connecting ∨ new = .idle))) :
      Reported b id new cause
        { balancer := (b.track id old new cause).repick
          actions := (if new = .idle then [.connect id] else []) ++
            [(b.track id old new cause).repick.publication] }

/-- What becomes of a report is one of the three. -/
theorem reported_report (b : Balancer) (id : Nat) (new : Connectivity)
    (cause : Option BalancerError) :
    Reported b id new cause (b.report id new cause) := by
  unfold Balancer.report
  split
  next hnone => exact .pass hnone
  next old hold =>
    dsimp only
    split
    next hstays => exact .skip hold hstays
    next hcounts => exact .record hold hcounts

theorem steps_report (b : Balancer) (id : Nat) (new : Connectivity) (cause : Option BalancerError) :
    Steps b (b.report id new cause).actions (b.report id new cause).balancer := by
  have hreconnect {old : Connectivity} (hold : b.states[id]? = some old) :
      Steps b (if new = .idle then [.connect id] else []) b := by
    split
    next => exact (Step.reconnect hold).steps
    next => exact .refl b
  have hreported := b.reported_report id new cause
  generalize b.report id new cause = o at hreported ⊢
  cases hreported with
  | pass => exact .refl b
  | skip hold => exact hreconnect hold
  | record hold =>
    refine (hreconnect hold).trans (Step.followedBy (.track hold new cause) ?_)
    exact Step.followedBy (.settle (holdings_repick _)) (Step.publish _).steps

/-- Every callback is a sequence of steps. -/
theorem steps_handle (b : Balancer) (callback : Callback) :
    Steps b (b.handle callback).actions (b.handle callback).balancer := by
  cases callback with
  | update dial addresses policy => exact b.steps_update dial addresses policy
  | failResolution e => exact b.steps_failResolution e
  | report id state cause => exact b.steps_report id state cause
  | close => exact .refl b
  | exitIdle => exact .refl b

end Balancer

end RingRouting
