import RingRouting.Proofs.Balancer.Aggregate
import RingRouting.Proofs.Balancer.Agreement
import RingRouting.Proofs.Channel.Trace

/-!
# Queued handles get ready

A handle that is to connect reports that it is connecting and then that it is ready. These reports
make no handle and ask none to connect, so that the queue gets shorter with each of them, and what
waits in it is all that keeps connections from being ready. Main statement: `Waiting.settle`.
-/

namespace RingRouting

/-- One connection that is ready is enough. -/
theorem Tally.aggregate_eq_ready {t : Tally} (h : 0 < t.count .ready) : t.aggregate = .ready :=
  if_pos h

namespace Balancer

variable {b b' b'' : Balancer}

/-! ## Reports -/

/-- The connections, the ring and the policy are the same, and a picker that goes by them still
does. -/
structure Steady (b b' : Balancer) : Prop where
  connections_eq : b'.connections = b.connections
  ring_eq : b'.ring = b.ring
  policy_eq : b'.policy = b.policy
  repick_eq : b.repick = b → b'.repick = b'

theorem Steady.refl (b : Balancer) : Steady b b :=
  ⟨rfl, rfl, rfl, id⟩

theorem Steady.trans (h : Steady b b') (h' : Steady b' b'') : Steady b b'' where
  connections_eq := h'.connections_eq.trans h.connections_eq
  ring_eq := h'.ring_eq.trans h.ring_eq
  policy_eq := h'.policy_eq.trans h.policy_eq
  repick_eq hrepick := h'.repick_eq (h.repick_eq hrepick)

theorem Steady.held_eq (h : Steady b b') : b'.held = b.held := by
  rw [held, held, h.connections_eq]

/-- A picker that was made anew is made the same once more. -/
theorem repick_repick (b : Balancer) : b.repick.repick = b.repick := by
  unfold repick
  cases hring : b.ring with
  | none => simp [fail, hring]
  | some members => by_cases hstate : b.state = .transientFailure <;> simp [fail, hring, hstate]

theorem steady_report (b : Balancer) (id : Nat) (new : Connectivity)
    (cause : Option BalancerError) :
    Steady b (b.report id new cause).balancer := by
  have hreported := b.reported_report id new cause
  generalize b.report id new cause = o at hreported ⊢
  cases hreported with
  | pass | skip => exact .refl b
  | @record old =>
    have hkept := (b.track id old new cause).holdings_repick
    have hconnections := connections_eq_of_holdings hkept
    have hring := ring_eq_of_holdings hkept
    have hpolicy := policy_eq_of_holdings hkept
    exact ⟨hconnections, hring, hpolicy, fun _ => repick_repick _⟩

/-- The new state of a handle is recorded in place of the old. -/
theorem states_track (b : Balancer) (id : Nat) (old : Connectivity) {new : Connectivity}
    (hnew : new ≠ .shutdown) (cause : Option BalancerError) :
    (b.track id old new cause).states = b.states.insert id new :=
  if_neg hnew

theorem states_repick (b : Balancer) : b.repick.states = b.states :=
  states_eq_of_holdings b.holdings_repick

/-- A report tells of one handle, and does not make it untracked unless it is shut down. -/
theorem states_report (b : Balancer) {id : Nat} (htracked : b.states[id]?.isSome)
    {new : Connectivity} (hnew : new ≠ .shutdown) (cause : Option BalancerError) :
    ∃ s, (b.report id new cause).balancer.states = b.states.insert id s := by
  have hreported := b.reported_report id new cause
  generalize b.report id new cause = o at hreported ⊢
  cases hreported with
  | pass hnone => simp [hnone] at htracked
  | @skip old hold =>
    refine ⟨old, Std.ExtTreeMap.ext_getElem? fun id' => ?_⟩
    by_cases heq : id = id'
    · simp [← heq, hold]
    · simp [Std.ExtTreeMap.getElem?_insert, heq]
  | record => exact ⟨new, (states_repick _).trans (b.states_track id _ hnew cause)⟩

/-- A handle that gets ready is ready, whatever it was before, and so are all connections
together. -/
theorem Sound.report_ready (hb : b.Sound) {id : Nat} (htracked : b.states[id]?.isSome)
    (cause : Option BalancerError) :
    (b.report id .ready cause).balancer.states = b.states.insert id .ready ∧
      (b.report id .ready cause).balancer.state = .ready := by
  have hreported := b.reported_report id .ready cause
  generalize b.report id .ready cause = o at hreported ⊢
  cases hreported with
  | pass hnone => simp [hnone] at htracked
  | skip hold hstays => exact absurd hstays.2 (by decide)
  | @record old hold =>
    have hnew : Connectivity.ready ≠ .shutdown := nofun
    have hstates := b.states_track id old hnew cause
    refine ⟨(states_repick _).trans hstates, ?_⟩
    have hready : (b.track id old .ready cause).states[id]? = some .ready := by
      rw [hstates, Std.ExtTreeMap.getElem?_insert_self]
    rw [(kept_repick _).state_eq]
    exact Tally.aggregate_eq_ready ((hb.track hold .ready cause).counts.pos hready)

/-- Only a handle that is idle is asked to connect again. -/
theorem quiet_report (b : Balancer) (id : Nat) {new : Connectivity} (hnew : new ≠ .idle)
    (cause : Option BalancerError) : Quiet (b.report id new cause).actions :=
  ⟨b.dialed_report id new cause, by rw [requested_report, if_neg fun h => hnew h.1]⟩

end Balancer

variable {p : Partitioner} {callbacks : List Balancer.Callback} {ch : Channel}

/-- A report that a handle makes to the channel is one more callback of the history. -/
theorem Traced.report (h : Traced p callbacks ch) (id : Nat) {new : Connectivity}
    (hnew : new ≠ .idle) :
    Traced p (callbacks ++ [.report id new none]) (ch.report id new) := by
  have hdialed :
      dialed (ch.balancer.handle (.report id new none)).actions = numbered ch.nextId [] :=
    (ch.balancer.quiet_report id hnew none).1
  exact h.follow hdialed

/-- What waits in the queue is all that keeps connections from being ready. -/
structure Waiting (ch : Channel) : Prop where
  held : ∀ id ∈ ch.queue, id ∈ ch.balancer.held
  tracked : ∀ id ∈ ch.queue, ch.balancer.states[id]?.isSome
  ready : ∀ id ∈ ch.balancer.held, id ∈ ch.queue ∨ ch.balancer.states[id]? = some .ready
  state_eq : ch.queue ≠ [] ∨ ch.balancer.connections = ∅ ∨ ch.balancer.state = .ready

/-- A channel between calls. -/
structure Rested (p : Partitioner) (policy : Policy) (ch : Channel) : Prop where
  traced : ∃ callbacks, Traced p callbacks ch
  waiting : Waiting ch
  queue_eq : ch.queue = []
  policy_eq : ch.policy = policy

/-- Handles that connect lead from one channel to another, which is at rest. -/
structure Settles (p : Partitioner) (policy : Policy) (ch ch' : Channel) : Prop where
  rested : Rested p policy ch'
  steady : ch.balancer.Steady ch'.balancer
  published : ch.published.isSome → ch'.published.isSome

/-- A report changes what the balancer knows of one handle, and nothing that the channel has to
do. -/
theorem Channel.report_eq (ch : Channel) (id : Nat) {new : Connectivity} (hnew : new ≠ .idle) :
    (ch.report id new).balancer = (ch.balancer.report id new none).balancer ∧
      (ch.report id new).policy = ch.policy ∧ (ch.report id new).queue = ch.queue ∧
      (ch.published.isSome → (ch.report id new).published.isSome) := by
  refine ⟨ch.balancer_follow _, ch.policy_follow _, ?_, fun hsome => ?_⟩
  · rw [Channel.report, Channel.queue_follow, (ch.balancer.quiet_report id hnew none).2,
      List.append_nil]
  · rw [Channel.report, Channel.published_follow, Option.isSome_or, hsome, Bool.or_true]

/-- The handle that is to connect next gets ready, and with it all connections together. -/
theorem Waiting.exists_next {id : Nat} {rest : List Nat} (h : Waiting ch)
    (ht : Traced p callbacks ch) (hqueue : ch.queue = id :: rest) :
    let next := (({ ch with queue := rest } : Channel).report id .connecting).report id .ready
    (∃ callbacks', Traced p callbacks' next) ∧ Waiting next ∧ next.queue = rest ∧
      ch.balancer.Steady next.balancer ∧ next.policy = ch.policy ∧
      (ch.published.isSome → next.published.isSome) := by
  have hconnecting : Connectivity.connecting ≠ .idle := nofun
  have hready : Connectivity.ready ≠ .idle := nofun
  have hmem : id ∈ ch.queue := hqueue ▸ List.mem_cons_self ..
  have htaken : Traced p callbacks { ch with queue := rest } :=
    ⟨⟨ht.exists_numbered, ht.getElem?_live, ht.published_eq⟩, ht.balancer_eq⟩
  have hreported := htaken.report id hconnecting
  have hnext := hreported.report id hready
  obtain ⟨hbalancer, hpolicy, hrest, hshown⟩ :=
    Channel.report_eq { ch with queue := rest } id hconnecting
  obtain ⟨hbalancer', hpolicy', hrest', hshown'⟩ :=
    Channel.report_eq (({ ch with queue := rest } : Channel).report id .connecting) id hready
  generalize ({ ch with queue := rest } : Channel).report id .connecting = ch' at *
  generalize ch'.report id .ready = next at *
  have hsteady : ch.balancer.Steady next.balancer := by
    rw [hbalancer', hbalancer]
    exact (Balancer.steady_report ..).trans (Balancer.steady_report ..)
  have hshutdown : Connectivity.connecting ≠ .shutdown := nofun
  obtain ⟨s, hs⟩ := ch.balancer.states_report (h.tracked id hmem) hshutdown none
  have htracked : ch'.balancer.states[id]?.isSome := by rw [hbalancer, hs]; simp
  obtain ⟨hstates, hstate⟩ := hreported.soundAfter.sound.report_ready htracked none
  rw [← hbalancer'] at hstates hstate
  -- what the first report says of the handle does not matter after the second
  have hlookup (id' : Nat) : next.balancer.states[id']? =
      if id = id' then some .ready else ch.balancer.states[id']? := by
    rw [hstates, hbalancer, hs]
    by_cases heq : id = id' <;> simp [Std.ExtTreeMap.getElem?_insert, heq]
  refine ⟨⟨_, hnext⟩, ⟨?_, ?_, ?_, .inr (.inr hstate)⟩, hrest'.trans hrest, hsteady,
    hpolicy'.trans hpolicy, fun hsome => hshown' (hshown hsome)⟩
  · intro id' hid'
    rw [hrest', hrest] at hid'
    rw [hsteady.held_eq]
    exact h.held id' (hqueue ▸ List.mem_cons_of_mem id hid')
  · intro id' hid'
    rw [hrest', hrest] at hid'
    rw [hlookup]
    split
    next => rfl
    next => exact h.tracked id' (hqueue ▸ List.mem_cons_of_mem id hid')
  · intro id' hid'
    rw [hsteady.held_eq] at hid'
    rw [hlookup, hrest', hrest]
    split
    next => exact .inr rfl
    next hne =>
      rcases h.ready id' hid' with hqueued | hready
      · rw [hqueue] at hqueued
        exact .inl ((List.mem_cons.mp hqueued).resolve_left (Ne.symm hne))
      · exact .inr hready

/-- What is held is kept by the transport. -/
theorem Traced.contains_live (h : Traced p callbacks ch) {id : Nat} (hid : id ∈ ch.balancer.held) :
    ch.live.contains id := by
  obtain ⟨a, c, hc, rfl⟩ := Balancer.mem_held.mp hid
  have ha := h.soundAfter.sound.bound a c hc
  have hlive := (h.live_iff c.id c).mpr ⟨rfl, ha ▸ hc⟩
  rw [Std.ExtTreeMap.contains_eq_isSome_getElem?, hlive]
  rfl

/-- Once all requests are answered the channel is at rest. -/
theorem Waiting.settle (n : Nat) {policy : Policy} {callbacks : List Balancer.Callback}
    {ch : Channel} (h : Waiting ch) (ht : Traced p callbacks ch) (hpolicy : ch.policy = policy)
    (hn : ch.queue.length = n) : Settles p policy ch (.settle n ch) := by
  induction n generalizing callbacks ch with
  | zero =>
    exact ⟨⟨⟨callbacks, ht⟩, h, List.length_eq_zero_iff.mp hn, hpolicy⟩, .refl _, id⟩
  | succ n ih =>
    cases hqueue : ch.queue with
    | nil => simp [hqueue] at hn
    | cons id rest =>
      have hlive := ht.contains_live (h.held id (hqueue ▸ List.mem_cons_self ..))
      obtain ⟨⟨callbacks', hnext⟩, hwaiting, hrest, hsteady, hpolicy', hshown⟩ :=
        h.exists_next ht hqueue
      unfold Channel.settle
      simp only [hqueue, hlive, if_true]
      rw [hqueue, List.length_cons, Nat.add_right_cancel_iff] at hn
      have hsettles := ih hwaiting hnext (hpolicy'.trans hpolicy) (by rw [hrest, hn])
      exact ⟨hsettles.rested, hsteady.trans hsettles.steady,
        fun hsome => hsettles.published (hshown hsome)⟩

end RingRouting
