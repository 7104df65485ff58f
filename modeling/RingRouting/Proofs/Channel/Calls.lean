import Mathlib.Data.List.Dedup
import RingRouting.Proofs.Balancer.Turnover
import RingRouting.Proofs.Channel.Update

/-!
# A channel after any calls

A channel is told of resolutions and of errors, in any order. Some of the resolutions bring no
address, and some are rejected, as two addresses in them have one place on the ring. When it is told
of addresses that do not get into each other's way, none of this matters any more: it keeps one
handle for each of them, all are ready, and calls go where a new ring with these addresses has them
go. Main statement: `run_accept`.
-/

namespace RingRouting

namespace Balancer

variable {b : Balancer} {desired : Std.ExtTreeSet Address} {o : Outcome} {ch : Channel}

/-! ## Updates that are not rejected -/

/-- Where the transport refuses nothing, each desired address has a connection, and the one that it
had. -/
theorem Reconciled.getElem?_settled (h : Reconciled ch.dial b desired o)
    (haccepted : ∀ e, o.error ≠ some (.ring e)) {a : Address} (ha : a ∈ desired) :
    a ∈ o.balancer.connections ∧
      ∀ c, b.connections[a]? = some c → o.balancer.connections[a]? = some c := by
  cases h with
  | @reject _ _ _ _ _ _ e => exact absurd rfl (haccepted e)
  | @settle b' settled hdials hsettled =>
    have hconnections : (settled.conclude desired.isEmpty).balancer.connections = b'.connections :=
      connections_eq_of_holdings (holdings_settled _ hsettled)
    have hlookup := hdials.getElem?_of_retained (List.prefix_refl _) a
    rw [Outcome.balancer_after, hconnections]
    refine ⟨?_, fun c hc => (hlookup c).mpr (.inr ⟨ha, hc⟩)⟩
    by_cases hheld : a ∈ b.connections
    · have hc := Std.ExtTreeMap.getElem?_eq_some_getElem hheld
      exact Std.ExtTreeMap.mem_iff_isSome_getElem?.mpr
        (by rw [(hlookup _).mpr (.inr ⟨ha, hc⟩)]; rfl)
    · -- a handle is asked for, and made
      have hmissing : a ∈ (b.retained desired).missing desired := by
        refine mem_missing.mpr ⟨ha, ?_⟩
        rwa [Std.ExtTreeMap.mem_iff_isSome_getElem?, getElem?_retained, if_pos ha,
          ← Std.ExtTreeMap.mem_iff_isSome_getElem?]
      rw [← map_fst_answers ch.dial 0 ((b.retained desired).missing desired), answers_dial,
        List.map_map] at hmissing
      obtain ⟨made, hmade, rfl⟩ := List.mem_map.mp hmissing
      have hanswer :
          (made.2, some made.1) ∈ answers ch.dial 0 ((b.retained desired).missing desired) := by
        rw [answers_dial]
        exact List.mem_map_of_mem hmade
      exact Std.ExtTreeMap.mem_iff_isSome_getElem?.mpr (by rw [(hlookup _).mpr (.inl hanswer)]; rfl)

/-- An update that is accepted leaves a picker that goes by the ring and the policy. -/
theorem Reconciled.repick_eq {dial : Nat → Address → Option Connection}
    (h : Reconciled dial b desired o) (herror : o.error = none) :
    o.balancer.repick = o.balancer := by
  have hempty := h.isEmpty_eq_false herror
  cases h with
  | reject => cases herror
  | @settle b' settled =>
    rw [hempty]
    exact settled.repick_repick

/-- Without addresses everything is failing. -/
theorem Reconciled.state_eq_of_isEmpty {dial : Nat → Address → Option Connection}
    (h : Reconciled dial b desired o) (hempty : desired.isEmpty) :
    o.balancer.state = .transientFailure := by
  have hnot (a : Address) : a ∉ desired := by simp [Std.ExtTreeSet.isEmpty_iff.mp hempty]
  have hnone : o.balancer.connections = ∅ :=
    Std.ExtTreeMap.eq_empty_iff_forall_not_mem.mpr fun a ha => hnot a (h.mem_desired ha)
  cases h with
  | reject hmissing =>
    have hasked := hmissing ▸ List.mem_append_right _ (List.mem_cons_self ..)
    exact absurd (mem_missing.mp hasked).1 (hnot _)
  | @settle b' settled =>
    have hsettled : (settled.conclude desired.isEmpty).balancer.connections = settled.connections :=
      connections_eq_of_holdings (settled.holdings_conclude _)
    rw [Outcome.balancer_after, hsettled] at hnone
    rw [hempty]
    simp [conclude, failResolution, fail, hnone]

end Balancer

/-! ## Calls -/

/-- What a channel is told. -/
inductive Call where
  /-- Addresses were resolved. -/
  | update (addresses : List Address)
  /-- A resolution failed. -/
  | reportError (e : ResolutionError)

/-- The channel after a call. -/
def Channel.tell (ch : Channel) : Call → Channel
  | .update addresses => (ch.accept addresses).2
  | .reportError e => ch.reportError e

/-- A new channel after some calls. -/
def Channel.run (p : Partitioner) (policy : Policy) (calls : List Call) : Channel :=
  calls.foldl Channel.tell (.new p policy)

variable {p : Partitioner} {policy : Policy} {ch : Channel} {addresses : List Address}

/-- A channel is at rest after every sequence of calls. -/
theorem rested_run (p : Partitioner) (policy : Policy) (calls : List Call) :
    Rested p policy (Channel.run p policy calls) := by
  induction calls using List.reverseRecOn with
  | nil => exact rested_new p policy
  | append_singleton calls call ih =>
    rw [Channel.run, List.foldl_append, List.foldl_cons, List.foldl_nil, ← Channel.run]
    cases call with
    | update addresses => exact (ih.update addresses).1.rested
    | reportError e => exact ih.reportError e

/-! ## Addresses that do not get into each other's way -/

/-- What the balancer is told leaves it with a connection for each address. -/
structure Resolved (policy : Policy) (addresses : List Address) (b : Balancer)
    (o : Outcome) : Prop where
  error_eq : o.error = if addresses = [] then some .badResolverState else none
  mem_connections_iff : ∀ a, a ∈ o.balancer.connections ↔ a ∈ addresses
  getElem?_eq : ∀ a ∈ addresses, ∀ c, b.connections[a]? = some c →
    o.balancer.connections[a]? = some c
  policy_eq : o.balancer.policy = some policy.withDefaults
  repick_eq : addresses ≠ [] → o.balancer.repick = o.balancer
  state_eq : addresses = [] → o.balancer.state = .transientFailure

/-- A channel at rest takes in addresses with distinct ring keys. -/
theorem Rested.resolved (h : Rested p policy ch)
    (hkeys : ∀ a ∈ addresses, ∀ a' ∈ addresses, a.ringKey = a'.ringKey → a = a') :
    Resolved policy addresses ch.balancer (ch.balancer.handle (ch.resolution addresses)) := by
  obtain ⟨callbacks, ht⟩ := h.traced
  obtain ⟨b, hsteps, hkept, hring, hpolicy, hreconciled⟩ :=
    ht.configured.reconciled_update ch.dial addresses ch.policy
  replace hreconciled : Balancer.Reconciled ch.dial b (.ofList addresses)
      (ch.balancer.handle (ch.resolution addresses)) := hreconciled
  obtain ⟨as, hdialed⟩ := hreconciled.exists_numbered
  have hhonest := (ht.follow hdialed).honest
  rw [Balancer.run_concat, ← ht.balancer_eq, Outcome.actions_after] at hhonest
  generalize ch.balancer.handle (ch.resolution addresses) = o at *
  have hlog : Honest ((Balancer.run p callbacks).actions ++ []) :=
    (List.append_nil (Balancer.run p callbacks).actions).symm ▸ ht.honest
  have hsound := ht.soundAfter.steps hsteps hlog
  rw [List.append_nil] at hsound
  have hends := hsound.ends_reconcile hring hreconciled hhonest
  obtain ⟨herror, -⟩ := hends.complete_of_compatible (Balancer.compatible_ofList hkeys)
  have haccepted (e : RingError) : o.error ≠ some (.ring e) := by
    rw [herror]
    split <;> nofun
  refine ⟨herror, fun a => ⟨fun ha => ?_, fun ha => ?_⟩, fun a ha c hc => ?_, ?_, fun hne => ?_,
    fun hnil => ?_⟩
  · exact Balancer.mem_ofList.mp (hreconciled.mem_desired ha)
  · exact (hreconciled.getElem?_settled haccepted (Balancer.mem_ofList.mpr ha)).1
  · exact (hreconciled.getElem?_settled haccepted (Balancer.mem_ofList.mpr ha)).2 c
      (hkept.connections_eq ▸ hc)
  · rw [hreconciled.policy_eq, hpolicy, h.policy_eq]
  · exact hreconciled.repick_eq (herror.trans (if_neg hne))
  · exact hreconciled.state_eq_of_isEmpty (Balancer.isEmpty_ofList.mpr hnil)

instance : Member Address where
  key := Address.ringKey

namespace Channel

/-- The transport keeps one handle for each of the addresses, all are ready, and that is what is
shown. -/
structure Serves (addresses : List Address) (ch : Channel) : Prop where
  existsUnique_live : ∀ a ∈ addresses, ∃! c : Connection, ch.live[c.id]? = some c ∧ c.address = a
  mem_of_live : ∀ (id : Nat) c, ch.live[id]? = some c → c.id = id ∧ c.address ∈ addresses
  ready : ∀ id ∈ ch.live, ch.balancer.states[id]? = some .ready
  state_eq : ch.published.map (·.1) = some (if addresses = [] then .transientFailure else .ready)

/-- Calls go to the first owners of their keys on this ring, so many of them, and with one owner to
go to they go to the primary one. -/
def RoutesOver (fresh : Ring Address) (owners : Nat) (ch : Channel) : Prop :=
  ∀ key : ByteArray, ¬key.isEmpty → ∀ chance, ∃ as c, fresh.findN key owners = .ok as ∧
    as.length = owners ∧ (ch.pick key chance).1 = .ok c ∧ ch.live[c.id]? = some c ∧ c.address ∈ as ∧
    (owners = 1 → fresh.find key = .ok c.address)

end Channel

/-- What a channel is once it took in addresses that do not get into each other's way. -/
theorem Rested.accepted (h : Rested p policy ch)
    (hkeys : ∀ a ∈ addresses, ∀ a' ∈ addresses, a.ringKey = a'.ringKey → a = a') :
    let accepted := (ch.accept addresses).2
    (∀ a, a ∈ accepted.balancer.connections ↔ a ∈ addresses) ∧
      (∀ a ∈ addresses, ∀ c, ch.balancer.connections[a]? = some c →
        accepted.balancer.connections[a]? = some c) ∧
      accepted.balancer.policy = some policy.withDefaults ∧
      (addresses ≠ [] → accepted.balancer.repick = accepted.balancer) ∧
      accepted.balancer.state = if addresses = [] then .transientFailure else .ready := by
  have hresolved := h.resolved hkeys
  obtain ⟨hsettles, -⟩ := h.update addresses
  have hconnections := hsettles.steady.connections_eq
  have hpolicy := hsettles.steady.policy_eq
  have hrepick := hsettles.steady.repick_eq
  rw [Channel.balancer_follow] at hconnections hpolicy hrepick
  refine ⟨?_, ?_, ?_, fun hne => hrepick (hresolved.repick_eq hne), ?_⟩
  · rw [hconnections]
    exact hresolved.mem_connections_iff
  · rw [hconnections]
    exact hresolved.getElem?_eq
  · rw [hpolicy, hresolved.policy_eq]
  · split
    next hnil =>
      -- no handle is held, so that none is waited for
      obtain ⟨-, hwaiting, -⟩ := h.waiting_follow addresses
      have hqueue : (ch.follow (ch.balancer.handle (ch.resolution addresses))).queue = [] := by
        refine List.eq_nil_iff_forall_not_mem.mpr fun id hid => ?_
        have hheld := hwaiting.held id hid
        rw [Channel.balancer_follow] at hheld
        obtain ⟨a, c, hc, -⟩ := Balancer.mem_held.mp hheld
        have ha := (hresolved.mem_connections_iff a).mp
          (Std.ExtTreeMap.mem_iff_isSome_getElem?.mpr (by rw [hc]; rfl))
        rw [hnil] at ha
        cases ha
      rw [ch.accept_snd, hqueue, List.length_nil, Channel.settle, Channel.balancer_follow]
      exact hresolved.state_eq hnil
    next hne =>
      refine hsettles.rested.state_eq.resolve_left fun hempty => ?_
      obtain ⟨a, ha⟩ := List.exists_mem_of_ne_nil _ hne
      have hheld := (hresolved.mem_connections_iff a).mpr ha
      rw [← hconnections, hempty] at hheld
      simp at hheld

/-- A channel at rest serves such addresses once the new handles have connected. -/
theorem Rested.serves (h : Rested p policy ch)
    (hkeys : ∀ a ∈ addresses, ∀ a' ∈ addresses, a.ringKey = a'.ringKey → a = a') :
    (ch.accept addresses).2.Serves addresses := by
  obtain ⟨hconnections, -, -, -, hstate⟩ := h.accepted hkeys
  obtain ⟨hsettles, hsome⟩ := h.update addresses
  obtain ⟨callbacks, ht⟩ := hsettles.rested.traced
  generalize (ch.accept addresses).2 = accepted at *
  have hbound := ht.soundAfter.sound.bound
  have hlive (c : Connection) : accepted.live[c.id]? = some c ↔
      accepted.balancer.connections[c.address]? = some c := by
    rw [ht.live_iff]
    exact and_iff_right rfl
  refine ⟨fun a ha => ?_, fun id c hc => ?_, fun id hid => ?_, ?_⟩
  · have hc := Std.ExtTreeMap.getElem?_eq_some_getElem ((hconnections a).mpr ha)
    refine ⟨_, ⟨(hlive _).mpr ?_, hbound a _ hc⟩, fun c' hc' => ?_⟩
    · rw [hbound a _ hc, hc]
    · obtain ⟨hc', rfl⟩ := hc'
      rw [hlive, hc] at hc'
      exact (Option.some.inj hc').symm
  · obtain ⟨hid, hc⟩ := (ht.live_iff id c).mp hc
    exact ⟨hid, (hconnections _).mp (Std.ExtTreeMap.mem_iff_isSome_getElem?.mpr (by rw [hc]; rfl))⟩
  · have hc := Std.ExtTreeMap.getElem?_eq_some_getElem hid
    obtain ⟨hid, hc⟩ := (ht.live_iff id _).mp hc
    exact hsettles.rested.ready (Balancer.mem_held.mpr ⟨_, _, hc, hid⟩)
  · rw [ht.published_eq_some hsome, Option.map_some, hstate]

/-! ## Where calls go -/

/-- A spread of zero stands for one. -/
theorem toNat_spread_withDefaults (policy : Policy) :
    policy.withDefaults.spread.toNat = max policy.spread.toNat 1 := by
  show (if policy.spread = 0 then Policy.defaultSpread else policy.spread).toNat = _
  split
  next h => rw [h]; rfl
  next h =>
    have hne : policy.spread.toNat ≠ 0 := fun h0 => h (UInt8.toNat_inj.mp h0)
    omega

/-- A channel picks with the picker that was published last. -/
theorem Channel.fst_pick {picker : Picker} {state : Connectivity}
    (h : ch.published = some (state, picker)) (key : ByteArray) (chance : Chance) :
    (ch.pick key chance).1 = (picker.pick (some key) chance ch.metrics).1 := by
  simp only [Channel.pick, h]

/-- With addresses calls are routed over the ring. -/
theorem Rested.exists_ring (h : Rested p policy ch)
    (hkeys : ∀ a ∈ addresses, ∀ a' ∈ addresses, a.ringKey = a'.ringKey → a = a')
    (hne : addresses ≠ []) :
    let accepted := (ch.accept addresses).2
    ∃ members, accepted.balancer.ring = some members ∧ members.size ≠ 0 ∧
      accepted.published = some (.ready, .ring members policy.withDefaults.spread) := by
  obtain ⟨hconnections, -, hpolicy, hrepick, hstate⟩ := h.accepted hkeys
  obtain ⟨hsettles, hsome⟩ := h.update addresses
  obtain ⟨callbacks, ht⟩ := hsettles.rested.traced
  have hrepick := hrepick hne
  rw [if_neg hne] at hstate
  generalize (ch.accept addresses).2 = accepted at *
  obtain ⟨a, ha⟩ := List.exists_mem_of_ne_nil _ hne
  have hheld := (hconnections a).mpr ha
  cases hring : accepted.balancer.ring with
  | none => simp [ht.soundAfter.sound.connections_eq_empty hring] at hheld
  | some members =>
    refine ⟨members, hring, ht.soundAfter.sound.size_ne_zero hring hheld, ?_⟩
    have hpicker := congrArg Balancer.picker hrepick
    simp only [Balancer.repick, hring, hstate, hpolicy] at hpicker
    rw [ht.published_eq_some hsome, hstate, ← hpicker]
    rfl

/-- The addresses have a ring of their own. -/
theorem exists_fresh (p : Partitioner) (policy : Policy)
    (hkeys : ∀ a ∈ addresses, ∀ a' ∈ addresses, a.ringKey = a'.ringKey → a = a') :
    ∃ fresh : Ring Address, Ring.ofMembers p policy.withDefaults.factor addresses.dedup =
      .ok fresh ∧
      fresh.Sound ∧ fresh.partitioner = p ∧ fresh.factor = policy.withDefaults.factor ∧
      fresh.size = addresses.dedup.length ∧
      ∀ key a, fresh.get? key = some a ↔ a ∈ addresses ∧ a.ringKey = key := by
  have hnodup : (addresses.dedup.map Address.ringKey).Nodup := by
    refine List.Nodup.map_on (fun a ha a' ha' => ?_) addresses.nodup_dedup
    exact hkeys a (List.mem_dedup.mp ha) a' (List.mem_dedup.mp ha')
  obtain ⟨fresh, hok, hsound, hp, hfactor, hget⟩ :=
    Ring.exists_ofMembers p (Balancer.factor_withDefaults_ne_zero policy) hnodup
  refine ⟨fresh, hok, hsound, hp, hfactor, ?_, fun key a => ?_⟩
  · refine hsound.size_eq_length addresses.nodup_dedup fun a => ?_
    rw [hget]
    exact and_iff_left rfl
  · rw [hget, List.mem_dedup]
    exact Iff.rfl

/-- The ring of a channel at rest is like a fresh one of the same addresses. -/
theorem Rested.alike (h : Rested p policy ch)
    (hkeys : ∀ a ∈ addresses, ∀ a' ∈ addresses, a.ringKey = a'.ringKey → a = a')
    {fresh : Ring Address} (hp : fresh.partitioner = p)
    (hfactor : fresh.factor = policy.withDefaults.factor)
    (hget : ∀ key a, fresh.get? key = some a ↔ a ∈ addresses ∧ a.ringKey = key)
    {members : Ring Connection} (hring : (ch.accept addresses).2.balancer.ring = some members) :
    Ring.Alike (·.address) id members fresh := by
  obtain ⟨hconnections, -, hpolicy, -⟩ := h.accepted hkeys
  obtain ⟨callbacks, ht⟩ := (h.update addresses).1.rested.traced
  have hcarries := ht.soundAfter.sound.carries members hring
  refine ⟨?_, ?_, fun key => Option.ext fun a => ?_⟩
  · rw [hp, hcarries.partitioner_eq, ht.balancer_eq, Balancer.partitioner_run]
  · have hmembers := hcarries.factor_eq
    rw [hpolicy] at hmembers
    exact hfactor.trans (Option.some.inj hmembers)
  · rw [Option.map_id, id_eq, hget, ht.soundAfter.sound.map_address_get?_eq_some_iff hring,
      hconnections]

/-- What stands on the ring is kept by the transport. -/
theorem Traced.live_of_mem_toList {callbacks : List Balancer.Callback} (h : Traced p callbacks ch)
    {members : Ring Connection} (hring : ch.balancer.ring = some members) {c : Connection}
    (hc : c ∈ members.toList) : ch.live[c.id]? = some c := by
  obtain ⟨key, hget⟩ := Ring.mem_toList.mp hc
  obtain ⟨a, ha, -⟩ := ((h.soundAfter.sound.carries members hring).mirrors key c).mp hget
  refine (h.live_iff c.id c).mpr ⟨rfl, ?_⟩
  rwa [h.soundAfter.sound.bound a c ha]

/-- Calls are routed over that ring, with the spread that the policy asks for. -/
theorem Rested.routesOver (h : Rested p policy ch)
    (hkeys : ∀ a ∈ addresses, ∀ a' ∈ addresses, a.ringKey = a'.ringKey → a = a')
    (hne : addresses ≠ []) :
    ∃ fresh, Ring.ofMembers p policy.withDefaults.factor addresses.dedup = .ok fresh ∧
      (ch.accept addresses).2.RoutesOver fresh
        (min (max policy.spread.toNat 1) addresses.dedup.length) := by
  obtain ⟨fresh, hok, hsound, hp, hfactor, hsize, hget⟩ := exists_fresh p policy hkeys
  obtain ⟨members, hring, hmembers, hpublished⟩ := h.exists_ring hkeys hne
  have halike := h.alike hkeys hp hfactor hget hring
  obtain ⟨callbacks, ht⟩ := (h.update addresses).1.rested.traced
  have hcarries := ht.soundAfter.sound.carries members hring
  have hsame := halike.size_eq hcarries.sound hsound
  refine ⟨fresh, hok, fun key hkey chance => ?_⟩
  rw [Channel.fst_pick hpublished, ← hsize]
  generalize (ch.accept addresses).2 = accepted at *
  obtain ⟨c, hc, hpick⟩ : ∃ c ∈ members.ownersOf key policy.withDefaults.spread.toNat,
      ((Picker.ring members policy.withDefaults.spread).pick (some key) chance accepted.metrics).1 =
      .ok c :=
    Picker.exists_pick_eq hcarries.sound hkey hmembers chance accepted.metrics
  -- as an address, the connection is one of the owners on the ring of addresses
  have howner : c.address ∈ fresh.ownersOf key (min (max policy.spread.toNat 1) fresh.size) := by
    have howners :=
      halike.map_ownersOf_eq hcarries.sound hsound key policy.withDefaults.spread.toNat
    rw [hsound.ownersOf_min, ← toNat_spread_withDefaults, ← List.map_id (fresh.ownersOf key _),
      howners]
    exact List.mem_map_of_mem hc
  have hlength : (fresh.ownersOf key (min (max policy.spread.toNat 1) fresh.size)).length =
      min (max policy.spread.toNat 1) fresh.size := by
    rw [hsound.length_ownersOf]
    omega
  refine ⟨_, c, Ring.findN_eq_ok_ownersOf key _ (hsame ▸ hmembers), hlength, hpick,
    ht.live_of_mem_toList hring (hcarries.sound.mem_toList_of_mem_ownersOf hc), howner,
    fun hone => ?_⟩
  rw [hone] at howner hlength
  obtain ⟨a, ha⟩ := List.length_eq_one_iff.mp hlength
  rw [ha, List.mem_singleton] at howner
  rw [hsound.find_eq_ok_iff_ownersOf, ha, howner]

/-! ## Errors -/

/-- Where a connection is held and all together are ready, a resolver error is noted and nothing
else. -/
theorem Channel.reportError_eq (hheld : ch.balancer.connections.isEmpty = false)
    (hstate : ch.balancer.state = .ready) (e : ResolutionError) :
    ∃ b, ch.reportError e = { ch with balancer := b } := by
  refine ⟨(ch.balancer.failResolution (.resolver e.message)).balancer, ?_⟩
  rw [Channel.reportError, Channel.follow]
  simp [Balancer.failResolution, hheld, hstate]

/-- Addresses are refused with the error of the balancer, and for no other reason. -/
theorem Channel.accept_fst (ch : Channel) (addresses : List Address) :
    (ch.accept addresses).1 = match (ch.balancer.handle (ch.resolution addresses)).error with
      | none => .ok ()
      | some e => .error (.rejected e.message) := by
  unfold Channel.accept
  dsimp only
  split
  next hnone => rw [show (ch.balancer.handle (ch.resolution addresses)).error = none from hnone]
  next e he => rw [show (ch.balancer.handle (ch.resolution addresses)).error = some e from he]

/-- What becomes of addresses that do not get into each other's way, after any calls. -/
theorem run_accept (p : Partitioner) (policy : Policy) (calls : List Call)
    (addresses : List Address)
    (hkeys : ∀ a ∈ addresses, ∀ a' ∈ addresses, a.ringKey = a'.ringKey → a = a') :
    let ch := Channel.run p policy calls
    let accepted := (ch.accept addresses).2
    accepted.queue = [] ∧
      (ch.accept addresses).1 =
        (if addresses = [] then
          .error (.rejected BalancerError.badResolverState.message) else .ok ()) ∧
      accepted.Serves addresses ∧
      (∀ (id : Nat) c, ch.live[id]? = some c → c.address ∈ addresses →
        accepted.live[id]? = some c) ∧
      (addresses ≠ [] →
        (∃ fresh, Ring.ofMembers p policy.withDefaults.factor addresses.dedup = .ok fresh ∧
          accepted.RoutesOver fresh (min (max policy.spread.toNat 1) addresses.dedup.length)) ∧
        ∀ e, (accepted.reportError e).published = accepted.published ∧
          ∀ key chance, ((accepted.reportError e).pick key chance).1 =
            (accepted.pick key chance).1) := by
  intro ch accepted
  have h : Rested p policy ch := rested_run p policy calls
  obtain ⟨hconnections, hkept, -, -, hstate⟩ := h.accepted hkeys
  obtain ⟨hsettles, -⟩ := h.update addresses
  refine ⟨hsettles.rested.queue_eq, ?_, h.serves hkeys, fun id c hc ha => ?_, fun hne =>
    ⟨h.routesOver hkeys hne, fun e => ?_⟩⟩
  · rw [ch.accept_fst, (h.resolved hkeys).error_eq]
    by_cases hnil : addresses = []
    · rw [if_pos hnil, if_pos hnil]
    · rw [if_neg hnil, if_neg hnil]
  · obtain ⟨callbacks, ht⟩ := h.traced
    obtain ⟨callbacks', ht'⟩ := hsettles.rested.traced
    obtain ⟨hid, hc⟩ := (ht.live_iff id c).mp hc
    exact (ht'.live_iff id c).mpr ⟨hid, hkept c.address ha c hc⟩
  · obtain ⟨a, ha⟩ := List.exists_mem_of_ne_nil _ hne
    have hheld : accepted.balancer.connections.isEmpty = false := by
      refine Bool.eq_false_iff.mpr fun hempty => ?_
      have hmem : a ∈ accepted.balancer.connections := (hconnections a).mpr ha
      rw [Std.ExtTreeMap.isEmpty_iff.mp hempty] at hmem
      exact Std.ExtTreeMap.not_mem_empty hmem
    rw [if_neg hne] at hstate
    obtain ⟨b, heq⟩ := Channel.reportError_eq hheld hstate e
    rw [heq]
    refine ⟨rfl, fun key chance => ?_⟩
    unfold Channel.pick
    cases accepted.published <;> rfl

/-- A node has two addresses in one update, which is rejected, and the second of them in the next
one. The other node keeps its handle all along. -/
theorem run_rejected_accept :
    let node (addr : String) (id : String) : Address := ⟨addr, "", some id⟩
    let calls : List Call := [.update [node "h:1" "m"],
      .update [node "h:1" "m", node "h:2" "n", node "h:3" "n"], .reportError .zeroInterval]
    let ch := Channel.run Ring.crowded ⟨2, 0⟩ calls
    let addresses := [node "h:3" "n", node "h:1" "m"]
    (ch.accept addresses).1 = .ok () ∧ (ch.accept addresses).2.Serves addresses ∧
      (ch.accept addresses).2.live[0]? = some ⟨0, node "h:1" "m"⟩ ∧
      ∃ fresh, Ring.ofMembers Ring.crowded 2 addresses = .ok fresh ∧
        (ch.accept addresses).2.RoutesOver fresh 1 := by
  intro node calls ch addresses
  have hnodup : addresses.Nodup := by decide
  have hlive : ch.live[0]? = some ⟨0, node "h:1" "m"⟩ := by decide +kernel
  obtain ⟨-, hok, hserves, hkept, hroutes⟩ :=
    run_accept Ring.crowded ⟨2, 0⟩ calls addresses (by decide)
  rw [if_neg nofun] at hok
  rw [show Channel.run Ring.crowded ⟨2, 0⟩ calls = ch from rfl] at hkept
  rw [hnodup.dedup] at hroutes
  exact ⟨hok, hserves, hkept 0 _ hlive (by decide), (hroutes nofun).1⟩

end RingRouting
