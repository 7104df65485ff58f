import Mathlib.Data.List.Dedup
import RingRouting.Proofs.Channel.Settle

/-!
# What a channel makes of a resolution

An update makes handles and asks them to connect. What they wait for is all that is left to do when
it ends, also where it ends in the middle, so that the channel comes to rest once they are ready.
Main statements: `Rested.update` and `Rested.reportError`, that every call leaves a channel at rest.
-/

namespace RingRouting

namespace Balancer

variable {b b' : Balancer} {dial : Nat → Address → Option Connection}
variable {desired : Std.ExtTreeSet Address} {front : List Address} {o : Outcome}

/-! ## What requests leave to do -/

/-- What requests leave to do, where all that was held was ready before. -/
theorem Dials.waits (h : Dials (b.retained desired) (answers dial 0 front) b')
    (hfront : front <+: (b.retained desired).missing desired) (hdistinct : Distinct b.connections)
    (hready : ∀ id ∈ b.held, b.states[id]? = some .ready) :
    (∀ id ∈ (handles (answers dial 0 front)).map (·.id), id ∈ b'.held ∧ b'.states[id]?.isSome) ∧
      ∀ id ∈ b'.held, id ∈ (handles (answers dial 0 front)).map (·.id) ∨
        b'.states[id]? = some .ready := by
  refine ⟨fun id hid => ⟨?_, ?_⟩, fun id hid => ?_⟩
  · obtain ⟨c, hc, rfl⟩ := List.mem_map.mp hid
    obtain ⟨a, ha⟩ := mem_handles.mp hc
    exact mem_held.mpr ⟨a, c, (h.getElem?_of_retained hfront a c).mpr (.inl ha), rfl⟩
  · rw [h.getElem?_states, if_pos hid]
    rfl
  · obtain ⟨a, c, hc, rfl⟩ := mem_held.mp hid
    rw [h.getElem?_states]
    split
    next hnew => exact .inl hnew
    next hold =>
      rcases (h.getElem?_of_retained hfront a c).mp hc with hnew | ⟨hdesired, hc⟩
      · exact absurd (List.mem_map_of_mem (mem_handles.mpr ⟨a, hnew⟩)) hold
      · have hretained : (b.retained desired).connections[a]? = some c := by
          rw [getElem?_retained, if_pos hdesired, hc]
        rw [retained, hdistinct.states_releaseAll _ hretained]
        exact .inr (hready c.id (mem_held.mpr ⟨a, c, hc, rfl⟩))

/-! ## Requests -/

/-- A transport that refuses nothing numbers its handles on. -/
theorem answers_dial (ch : Channel) (made : Nat) (as : List Address) :
    answers ch.dial made as = (numbered (ch.nextId + made) as).map fun made =>
    (made.2, some made.1) := by
  induction as generalizing made with
  | nil => rfl
  | cons a rest ih =>
    have hdial : ch.dial made a = some ⟨ch.nextId + made, a⟩ := rfl
    rw [answers, hdial, numbered, List.map_cons]
    exact congrArg ((a, some ⟨ch.nextId + made, a⟩) :: ·) (ih (made + 1))

/-- The channel grants every request, and numbers the handles on. -/
theorem dialed_answers_dial (ch : Channel) (as : List Address) :
    dialed ((answers ch.dial 0 as).flatMap requestActions) = numbered ch.nextId as := by
  rw [dialed_flatMap, answers_dial, List.filterMap_map]
  exact List.filterMap_some

theorem handles_answers_dial (ch : Channel) (as : List Address) :
    handles (answers ch.dial 0 as) = (numbered ch.nextId as).map (·.1) := by
  rw [handles, answers_dial, List.filterMap_map]
  exact congrFun List.filterMap_eq_map _

/-! ## Updates -/

/-- However an update ends, the channel made handles of the next numbers in a row. -/
theorem Reconciled.exists_numbered {ch : Channel} (h : Reconciled ch.dial b desired o) :
    ∃ as, dialed o.actions = numbered ch.nextId as := by
  cases h with
  | @reject _ front _ a c _ _ _ _ hdial =>
    -- the handle that the ring refuses has a number all the same
    refine ⟨front ++ [a], ?_⟩
    rw [Nat.zero_add, handles_answers_dial, List.length_map, length_numbered] at hdial
    cases hdial
    rw [dialed_append, dialed_append, (quiet_releaseAll _ _).1, dialed_answers_dial,
      numbered_append]
    rfl
  | settle =>
    rw [Outcome.actions_after, dialed_append, dialed_append, (quiet_releaseAll _ _).1,
      dialed_answers_dial, (quiet_conclude _ _).1, List.append_nil]
    exact ⟨_, rfl⟩

/-- After an update that found all handles ready, the others were told to connect. -/
theorem Reconciled.waits (h : Reconciled dial b desired o) (hdistinct : Distinct b.connections)
    (hready : ∀ id ∈ b.held, b.states[id]? = some .ready) :
    (∀ id ∈ requested o.actions, id ∈ o.balancer.held ∧ o.balancer.states[id]?.isSome) ∧
      ∀ id ∈ o.balancer.held, id ∈ requested o.actions ∨ o.balancer.states[id]? = some .ready := by
  cases h with
  | reject hmissing hdials =>
    rw [requested_append, requested_append, (quiet_releaseAll _ _).2, requested_flatMap,
      List.nil_append]
    have hwaits := hdials.waits (hmissing ▸ List.prefix_append ..) hdistinct hready
    exact (List.append_nil _).symm ▸ hwaits
  | @settle b' settled hdials hsettled =>
    rw [Outcome.actions_after, requested_append, requested_append, (quiet_releaseAll _ _).2,
      requested_flatMap, (quiet_conclude _ _).2, List.nil_append, List.append_nil]
    have hholdings := holdings_settled desired.isEmpty hsettled
    rw [Outcome.balancer_after, states_eq_of_holdings hholdings, held_eq_of_holdings hholdings]
    exact hdials.waits (List.prefix_refl _) hdistinct hready

/-- One connection that is ready makes all together ready. -/
theorem Sound.aggregate_eq_ready (hb : b.Sound) {id : Nat} (hready : b.states[id]? = some .ready) :
    b.tally.aggregate = .ready :=
  Tally.aggregate_eq_ready (hb.counts.pos hready)

/-- An update that was rejected leaves the state as it is. If it made no handle before, it only let
go of connections. -/
theorem Reconciled.kept_of_rejected (h : Reconciled dial b desired o)
    (hring : ∃ e, o.error = some (.ring e)) (hnone : requested o.actions = []) :
    (∀ a ∈ o.balancer.connections, a ∈ b.connections) ∧ o.balancer.state = b.state := by
  cases h with
  | @reject b' front _ _ _ _ _ hmissing hdials =>
    have hhandles : handles (answers dial 0 front) = [] := by
      rw [requested_append, requested_append, requested_flatMap, List.append_eq_nil_iff,
        List.append_eq_nil_iff, List.map_eq_nil_iff] at hnone
      exact hnone.2.1
    refine ⟨fun a ha => ?_, ?_⟩
    · obtain ⟨c, hc⟩ := Option.isSome_iff_exists.mp (Std.ExtTreeMap.mem_iff_isSome_getElem?.mp ha)
      rcases (hdials.getElem?_of_retained (hmissing ▸ List.prefix_append ..) a c).mp hc with
        hnew | ⟨-, hold⟩
      · have hmade := mem_handles.mpr ⟨a, hnew⟩
        rw [hhandles] at hmade
        cases hmade
      · exact Std.ExtTreeMap.mem_iff_isSome_getElem?.mpr (by rw [hold]; rfl)
    · obtain ⟨_, _, _, _, heq⟩ := hdials.exists_retained_eq
      rw [heq]
  | settle =>
    obtain ⟨e, he⟩ := hring
    rw [Outcome.error_after, conclude] at he
    split at he
    next => cases he
    next => cases he

/-- Where all handles are ready that are held, all connections together are. -/
theorem Sound.rests (hb : b.Sound) (htaken : b.state = b.tally.aggregate)
    (hready : ∀ id ∈ b.held, b.states[id]? = some .ready) : b.connections = ∅ ∨
    b.state = .ready := by
  by_cases hempty : b.connections = ∅
  · exact .inl hempty
  · obtain ⟨a, ha⟩ := TreeMap.exists_mem_of_ne_empty hempty
    have hheld : (b.connections[a]).id ∈ b.held :=
      Balancer.mem_held.mpr ⟨a, _, Std.ExtTreeMap.getElem?_eq_some_getElem ha, rfl⟩
    exact .inr (htaken.trans (hb.aggregate_eq_ready (hready _ hheld)))

/-- An update that asks no handle to connect leaves no connection, or all connections together
ready. -/
theorem Reconciled.rests (h : Reconciled dial b desired o) (hb : o.balancer.Sound)
    (hstate : b.connections = ∅ ∨ b.state = .ready) (hnone : requested o.actions = [])
    (hready : ∀ id ∈ o.balancer.held, o.balancer.states[id]? = some .ready) :
    o.balancer.connections = ∅ ∨ o.balancer.state = .ready := by
  by_cases hring : ∃ e, o.error = some (.ring e)
  · obtain ⟨hsub, hsame⟩ := h.kept_of_rejected hring hnone
    rcases hstate with hempty | hstate
    · refine .inl (Std.ExtTreeMap.eq_empty_iff_forall_not_mem.mpr fun a ha => ?_)
      have hheld := hsub a ha
      simp [hempty] at hheld
    · exact .inr (hsame.trans hstate)
  · rcases h.summed (fun e he => hring ⟨e, he⟩) with ⟨-, hempty⟩ | ⟨-, -, -, hkept⟩ | ⟨-, -, htaken⟩
    · exact .inl hempty
    · rwa [hkept.connections_eq, hkept.state_eq]
    · exact hb.rests htaken hready

/-- An update puts its policy in force and then goes on. -/
theorem Configured.reconciled_update (hb : b.Configured) (dial : Nat → Address → Option Connection)
    (addresses : List Address) (policy : Policy) :
    ∃ b', Steps b [] b' ∧ Kept b b' ∧ b'.ring.isSome ∧ b'.policy = some policy.withDefaults ∧
      Reconciled dial b' (.ofList addresses) (b.update dial addresses (some policy)) := by
  have hupdated := hb.updated_update dial addresses (some policy)
  generalize b.update dial addresses (some policy) = o at hupdated ⊢
  have hcleared : Step b [] { b with resolverError := none } := .settle rfl
  have hkept : Kept b ({ b with resolverError := none } : Balancer) := ⟨rfl, rfl, rfl, rfl⟩
  cases hupdated with
  | noRing hadopt hring =>
    obtain ⟨members, rfl⟩ := exists_configure_eq hadopt
    cases hring
  | @reconcile b' _ hadopt hring h =>
    refine ⟨b', hcleared.followedBy (Step.adopt hadopt).steps, hkept.trans (kept_adopt hadopt),
      hring, ?_, h⟩
    obtain ⟨members, rfl⟩ := exists_configure_eq hadopt
    rfl

end Balancer

/-! ## Calls -/

variable {p : Partitioner} {policy : Policy} {ch : Channel}

theorem rested_new (p : Partitioner) (policy : Policy) : Rested p policy (.new p policy) where
  traced := ⟨[], traced_new p policy⟩
  waiting := by
    refine ⟨nofun, nofun, fun id hid => ?_, .inr (.inl rfl)⟩
    obtain ⟨a, c, hc, -⟩ := Balancer.mem_held.mp hid
    simp [Channel.new] at hc
  queue_eq := rfl
  policy_eq := rfl

/-- Every handle that a channel at rest holds is ready. -/
theorem Rested.ready (h : Rested p policy ch) {id : Nat} (hid : id ∈ ch.balancer.held) :
    ch.balancer.states[id]? = some .ready := by
  refine (h.waiting.ready id hid).resolve_left fun hqueued => ?_
  rw [h.queue_eq] at hqueued
  cases hqueued

/-- So the connections of a channel at rest are ready together, if there are any. -/
theorem Rested.state_eq (h : Rested p policy ch) :
    ch.balancer.connections = ∅ ∨ ch.balancer.state = .ready :=
  h.waiting.state_eq.resolve_left fun hne => hne h.queue_eq

/-- The callback of an update, as the channel passes it on. -/
def Channel.resolution (ch : Channel) (addresses : List Address) : Balancer.Callback :=
  .update ch.dial addresses (some ch.policy)

/-- When an update ends, new handles are all that is waited for. -/
theorem Rested.waiting_follow (h : Rested p policy ch) (addresses : List Address) :
    let followed := ch.follow (ch.balancer.handle (ch.resolution addresses))
    (∃ callbacks, Traced p callbacks followed) ∧ Waiting followed ∧ followed.published.isSome := by
  obtain ⟨callbacks, ht⟩ := h.traced
  obtain ⟨b, -, hkept, -, -, hreconciled⟩ :=
    ht.configured.reconciled_update ch.dial addresses ch.policy
  replace hreconciled : Balancer.Reconciled ch.dial b (.ofList addresses)
      (ch.balancer.handle (ch.resolution addresses)) := hreconciled
  obtain ⟨as, hdialed⟩ := hreconciled.exists_numbered
  have hfollowed := ht.follow hdialed
  have hdistinct : Balancer.Distinct b.connections :=
    hkept.connections_eq ▸ ht.soundAfter.distinct ht.honest
  have hready (id : Nat) (hid : id ∈ b.held) : b.states[id]? = some .ready := by
    rw [hkept.states_eq]
    rw [Balancer.held, hkept.connections_eq] at hid
    exact h.ready hid
  have hstate : b.connections = ∅ ∨ b.state = .ready := by
    rw [hkept.connections_eq, hkept.state_eq]
    exact h.state_eq
  obtain ⟨hqueued, hheld⟩ := hreconciled.waits hdistinct hready
  have hsound := hfollowed.soundAfter.sound
  rw [Channel.balancer_follow] at hsound
  refine ⟨⟨_, hfollowed⟩, ⟨?_, ?_, ?_, ?_⟩, ?_⟩
  · rw [Channel.queue_follow, h.queue_eq, Channel.balancer_follow]
    exact fun id hid => (hqueued id hid).1
  · rw [Channel.queue_follow, h.queue_eq, Channel.balancer_follow]
    exact fun id hid => (hqueued id hid).2
  · rw [Channel.queue_follow, h.queue_eq, Channel.balancer_follow]
    exact hheld
  · rw [Channel.queue_follow, h.queue_eq, Channel.balancer_follow, List.nil_append]
    -- if no handle is asked to connect, no report will put the state right later
    by_cases hnone : requested (ch.balancer.handle (ch.resolution addresses)).actions = []
    · refine .inr (hreconciled.rests hsound hstate hnone fun id hid =>
        (hheld id hid).resolve_left ?_)
      rw [hnone]
      exact List.not_mem_nil
    · exact .inl hnone
  · have hannounces := ht.configured.announces_update ch.dial addresses (some ch.policy)
    have hpublished : published (ch.balancer.handle (ch.resolution addresses)).actions = _ :=
      hannounces.published_eq
    rw [Channel.published_follow, hpublished]
    rfl

/-- Addresses are handed to the balancer, and then the handles that wait connect. -/
theorem Channel.accept_snd (ch : Channel) (addresses : List Address) :
    let followed := ch.follow (ch.balancer.handle (ch.resolution addresses))
    (ch.accept addresses).2 = Channel.settle followed.queue.length followed := by
  unfold Channel.accept
  dsimp only
  split <;> rfl

/-- An update ends with a channel at rest, whatever became of it. -/
theorem Rested.update (h : Rested p policy ch) (addresses : List Address) :
    Settles p policy (ch.follow (ch.balancer.handle (ch.resolution addresses)))
      (ch.accept addresses).2 ∧
      (ch.accept addresses).2.published.isSome := by
  obtain ⟨⟨callbacks, ht⟩, hwaiting, hsome⟩ := h.waiting_follow addresses
  have hsettles := hwaiting.settle _ ht ((ch.policy_follow _).trans h.policy_eq) rfl
  rw [ch.accept_snd]
  exact ⟨hsettles, hsettles.published hsome⟩

/-- A resolver error changes connections as little as it changes the queue. -/
theorem Rested.reportError (h : Rested p policy ch) (e : ResolutionError) :
    Rested p policy (ch.reportError e) := by
  obtain ⟨callbacks, ht⟩ := h.traced
  have hquiet := ch.balancer.quiet_failResolution (.resolver e.message)
  have hholdings := ch.balancer.holdings_failResolution (.resolver e.message)
  have hdialed : dialed (ch.balancer.handle (.failResolution (.resolver e.message))).actions =
      numbered ch.nextId [] := hquiet.1
  have hqueue : (ch.reportError e).queue = [] := by
    rw [Channel.reportError, Channel.queue_follow, h.queue_eq, hquiet.2, List.append_nil]
  have hheld : (ch.reportError e).balancer.held = ch.balancer.held := by
    rw [Channel.reportError, Channel.balancer_follow]
    exact Balancer.held_eq_of_holdings hholdings
  have hstates : (ch.reportError e).balancer.states = ch.balancer.states := by
    rw [Channel.reportError, Channel.balancer_follow]
    exact Balancer.states_eq_of_holdings hholdings
  refine ⟨⟨_, ht.follow hdialed⟩, ⟨?_, ?_, ?_, .inr ?_⟩, hqueue,
    (ch.policy_follow _).trans h.policy_eq⟩
  · rw [hqueue]
    exact nofun
  · rw [hqueue]
    exact nofun
  · intro id hid
    rw [hstates]
    exact .inr (h.ready (hheld ▸ hid))
  · rw [Channel.reportError, Channel.balancer_follow]
    cases ch.balancer.summed_failResolution (.resolver e.message) with
    | taken htakes => exact htakes.1.elim
    | kept _ hkept =>
      have hstate := h.state_eq
      rwa [← hkept.connections_eq, ← hkept.state_eq] at hstate
    | emptied _ hempty => exact .inl hempty

end RingRouting
