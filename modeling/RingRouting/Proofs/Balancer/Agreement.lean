import RingRouting.Proofs.Balancer.Update
import RingRouting.Proofs.Picker
import RingRouting.Proofs.Ring.Relabel

/-!
# Clients agree

Clients of one cluster come to know of its nodes in different ways: one saw nodes move, another was
refused a handle, a third one had an update rejected, and each has handles of its own. The ring
keeps nothing of this. Once all of them hold connections for the same addresses under one policy,
they route each call to the same addresses. Main statement: `serves_agree`.
-/

namespace RingRouting.Balancer

variable {b b' : Balancer} {dial : Nat → Address → Option Connection} {p : Partitioner}

/-! ## The addresses that are held -/

/-- After an update connections are held for desired addresses only, also where it ended in the
middle. -/
theorem Reconciled.mem_desired {desired : Std.ExtTreeSet Address} {o : Outcome}
    (h : Reconciled dial b desired o) {a : Address} (ha : a ∈ o.balancer.connections) :
    a ∈ desired := by
  have hdesired {b' : Balancer} {front : List Address}
      (hdials : Dials (b.retained desired) (answers dial 0 front) b')
      (hfront : front <+: (b.retained desired).missing desired) (ha : a ∈ b'.connections) :
      a ∈ desired := by
    obtain ⟨c, hc⟩ := Std.ExtTreeMap.mem_iff_isSome_getElem?.mp ha |> Option.isSome_iff_exists.mp
    rcases (hdials.getElem?_of_retained hfront a c).mp hc with hnew | ⟨hdesired, -⟩
    · exact (mem_missing.mp (hfront.subset (mem_of_mem_answers hnew))).1
    · exact hdesired
  cases h with
  | reject hmissing hdials => exact hdesired hdials (hmissing ▸ List.prefix_append ..) ha
  | @settle b' settled hdials hsettled =>
    refine hdesired hdials (List.prefix_refl _) ?_
    rwa [Outcome.balancer_after, connections_eq_of_holdings (holdings_settled _ hsettled)] at ha

/-- An update is not accepted without addresses. -/
theorem Reconciled.isEmpty_eq_false {desired : Std.ExtTreeSet Address} {o : Outcome}
    (h : Reconciled dial b desired o) (herror : o.error = none) : desired.isEmpty = false := by
  cases h with
  | reject => cases herror
  | settle =>
    rw [Outcome.error_after, conclude] at herror
    split at herror
    next => cases herror
    next hempty => exact Bool.eq_false_iff.mpr hempty

/-- An accepted update names at least one address and holds none that it does not name. -/
theorem Configured.mem_of_update_accepted (hb : b.Configured) {addresses : List Address}
    {policy : Option Policy} (herror : (b.update dial addresses policy).error = none) :
    addresses ≠ [] ∧ ∀ a ∈ (b.update dial addresses policy).balancer.connections,
    a ∈ addresses := by
  have hupdated := hb.updated_update dial addresses policy
  generalize b.update dial addresses policy = o at hupdated herror ⊢
  cases hupdated with
  | noRing => cases herror
  | reconcile _ _ h =>
    refine ⟨fun hnil => ?_, fun a ha => mem_ofList.mp (h.mem_desired ha)⟩
    have hempty := h.isEmpty_eq_false herror
    rw [isEmpty_ofList.mpr hnil] at hempty
    cases hempty

theorem connections_report (b : Balancer) (id : Nat) (new : Connectivity)
    (cause : Option BalancerError) :
    (b.report id new cause).balancer.connections = b.connections := by
  have hreported := b.reported_report id new cause
  generalize b.report id new cause = o at hreported ⊢
  cases hreported with
  | pass | skip => rfl
  | @record old =>
    have hkept := connections_eq_of_holdings (b.track id old new cause).holdings_repick
    exact hkept

/-- Only updates change connections. -/
theorem connections_handle (b : Balancer) {callback : Callback}
    (h : ∀ dial addresses policy, callback ≠ .update dial addresses policy) :
    (b.handle callback).balancer.connections = b.connections := by
  cases callback with
  | update dial addresses policy => exact absurd rfl (h dial addresses policy)
  | failResolution e => exact connections_eq_of_holdings (b.holdings_failResolution e)
  | report id new cause => exact b.connections_report id new cause
  | close | exitIdle => rfl

/-- The last update of a history came with these addresses and was accepted. -/
def LastAccepted (p : Partitioner) (callbacks : List Callback) (addresses : List Address) : Prop :=
  ∃ before dial policy later, callbacks = before ++ .update dial addresses policy :: later ∧
    (∀ callback ∈ later, ∀ dial addresses policy, callback ≠ .update dial addresses policy) ∧
    ((run p before).balancer.update dial addresses policy).error = none

/-- Whatever is held was named by the update that was accepted last. -/
theorem LastAccepted.mem_of_mem_connections {callbacks : List Callback} {addresses : List Address}
    (h : LastAccepted p callbacks addresses) :
    addresses ≠ [] ∧ ∀ a ∈ (run p callbacks).balancer.connections, a ∈ addresses := by
  obtain ⟨before, dial, policy, later, rfl, hlater, herror⟩ := h
  induction later using List.reverseRecOn with
  | nil =>
    rw [run_concat]
    exact (configured_run p before).mem_of_update_accepted herror
  | append_singleton later callback ih =>
    have hkept :=
      connections_handle (run p (before ++ .update dial addresses policy :: later)).balancer
      (hlater callback (List.mem_append_right _ (List.mem_cons_self ..)))
    rw [← List.cons_append, ← List.append_assoc, run_concat, Outcome.balancer_after, hkept]
    exact ih fun callback hcallback => hlater callback (List.mem_append_left _ hcallback)

/-! ## The rings of two balancers -/

/-- No callback changes the partitioner. -/
theorem partitioner_run (p : Partitioner) (callbacks : List Callback) :
    (run p callbacks).balancer.partitioner = p := by
  refine run_induction (P := fun _ b => b.partitioner = p) rfl ?_ callbacks
  intro log actions b b' hb h
  rw [← hb]
  cases h with
  | adopt hadopt =>
    obtain ⟨policy, ring, rfl⟩ := exists_adopt_eq hadopt
    rfl
  | @release a _ _ =>
    obtain ⟨tally, connections, states, ring, heq⟩ := exists_release b a
    rw [heq]
  | settle h => exact partitioner_eq_of_holdings h
  | refuse | hold | reject | track | reconnect | publish | count => rfl

/-- What stands on the ring under a key is known by its address alone. -/
theorem Sound.map_address_get?_eq_some_iff (hb : b.Sound) {members : Ring Connection}
    (hring : b.ring = some members) {key : String} {a : Address} :
    (members.get? key).map (·.address) = some a ↔ a ∈ b.connections ∧ a.ringKey = key := by
  have hmirrors := (hb.carries members hring).mirrors key
  rw [Option.map_eq_some_iff]
  constructor
  · intro h
    obtain ⟨c, hc, rfl⟩ := h
    obtain ⟨a, ha, hkey⟩ := (hmirrors c).mp hc
    rw [hb.bound a c ha]
    exact ⟨Std.ExtTreeMap.mem_iff_isSome_getElem?.mpr (by rw [ha]; rfl), hkey⟩
  · intro h
    obtain ⟨ha, hkey⟩ := h
    have hc := Std.ExtTreeMap.getElem?_eq_some_getElem ha
    exact ⟨_, (hmirrors _).mpr ⟨a, hc, hkey⟩, hb.bound a _ hc⟩

/-- Balancers with connections for the same addresses have rings alike. -/
theorem Sound.alike (hb : b.Sound) (hb' : b'.Sound) (hp : b'.partitioner = b.partitioner)
    (hpolicy : b'.policy = b.policy) (hsame : ∀ a : Address, a ∈ b'.connections ↔ a ∈ b.connections)
    {members members' : Ring Connection} (hring : b.ring = some members)
    (hring' : b'.ring = some members') :
    Ring.Alike (·.address) (·.address) members members' where
  partitioner_eq := by
    rw [(hb'.carries members' hring').partitioner_eq, hp, (hb.carries members hring).partitioner_eq]
  factor_eq := by
    have hfactor := (hb'.carries members' hring').factor_eq
    rw [hpolicy, (hb.carries members hring).factor_eq] at hfactor
    exact (Option.some.inj hfactor).symm
  get?_eq key := by
    refine Option.ext fun a => ?_
    rw [hb'.map_address_get?_eq_some_iff hring', hb.map_address_get?_eq_some_iff hring, hsame]

/-- Where a connection is held the ring has a member. -/
theorem Sound.size_ne_zero (hb : b.Sound) {members : Ring Connection}
    (hring : b.ring = some members)
    {a : Address} (ha : a ∈ b.connections) : members.size ≠ 0 := by
  intro hsize
  have hget : (members.get? a.ringKey).map (·.address) = some a :=
    (hb.map_address_get?_eq_some_iff hring).mpr ⟨ha, rfl⟩
  obtain ⟨c, hc, -⟩ := Option.map_eq_some_iff.mp hget
  have hmem := Ring.mem_toList.mpr ⟨_, hc⟩
  rw [Ring.toList_eq_nil_iff.mpr hsize] at hmem
  cases hmem

/-! ## Clients -/

/-- A client serves these addresses: after its history, the last update of which came with them and
was accepted, it holds a connection for each of them, the policy is in force, and the picker is what
it published last. -/
structure Serves (p : Partitioner) (addresses : List Address) (policy : Policy)
    (callbacks : List Callback) (picker : Picker) : Prop where
  honest : Honest (run p callbacks).actions
  accepted : LastAccepted p callbacks addresses
  policy_eq : (run p callbacks).balancer.policy = some policy
  held : ∀ a ∈ addresses, a ∈ (run p callbacks).balancer.connections
  last_eq : ∃ state, (published (run p callbacks).actions).getLast? = some (state, picker)

variable {addresses : List Address} {policy : Policy} {callbacks : List Callback}
variable {members : Ring Connection} {spread : UInt8}

theorem Serves.sound {picker : Picker} (h : Serves p addresses policy callbacks picker) :
    (run p callbacks).balancer.Sound :=
  (soundAfter_run p callbacks h.honest).sound

/-- A client that serves addresses holds connections for these and no others. -/
theorem Serves.mem_connections_iff {picker : Picker}
    (h : Serves p addresses policy callbacks picker)
    (a : Address) : a ∈ (run p callbacks).balancer.connections ↔ a ∈ addresses :=
  ⟨h.accepted.mem_of_mem_connections.2 a, h.held a⟩

/-- The picker that it shows has the ring and the spread in force. -/
theorem Serves.ring_eq (h : Serves p addresses policy callbacks (.ring members spread)) :
    (run p callbacks).balancer.ring = some members ∧ policy.spread = spread := by
  obtain ⟨state, hlast⟩ := h.last_eq
  have hagreed := agreed_run p callbacks
  obtain ⟨-, hpicker⟩ := Prod.mk.inj (hagreed.last_eq _ hlast)
  obtain ⟨hring, hspread, -⟩ := hagreed.current members spread hpicker.symm
  rw [h.policy_eq] at hspread
  exact ⟨hring, Option.some.inj hspread⟩

theorem Serves.sound_members (h : Serves p addresses policy callbacks (.ring members spread)) :
    members.Sound :=
  (h.sound.carries members h.ring_eq.1).sound

/-- The ring of that picker is not empty, as the accepted list was not. -/
theorem Serves.size_ne_zero (h : Serves p addresses policy callbacks (.ring members spread)) :
    members.size ≠ 0 := by
  obtain ⟨a, ha⟩ := List.exists_mem_of_ne_nil _ h.accepted.mem_of_mem_connections.1
  exact h.sound.size_ne_zero h.ring_eq.1 (h.held a ha)

/-- Clients that serve the same addresses under one policy give each key the same owners, in the
same order, and route calls to the same addresses. -/
theorem serves_agree {addresses' : List Address} {callbacks' : List Callback}
    {members' : Ring Connection} {spread' : UInt8}
    (h : Serves p addresses policy callbacks (.ring members spread))
    (h' : Serves p addresses' policy callbacks' (.ring members' spread'))
    (hsame : ∀ a, a ∈ addresses ↔ a ∈ addresses') :
    (∀ key n, (members'.ownersOf key n).map (·.address) =
      (members.ownersOf key n).map (·.address)) ∧
      ∀ key : ByteArray, ¬key.isEmpty → ∀ m m',
        (∀ a, (∃ chance, (Picker.ring members spread).target key chance m = .ok a) ↔
          ∃ chance, (Picker.ring members' spread').target key chance m' = .ok a) ∧
        (∀ chance, ∃ a, (Picker.ring members spread).target key chance m = .ok a) ∧
        (policy.spread = 1 → ∃ a, ∀ chance,
          (Picker.ring members spread).target key chance m = .ok a ∧
            (Picker.ring members' spread').target key chance m' = .ok a) := by
  have halike : Ring.Alike (·.address) (·.address) members members' := by
    refine h.sound.alike h'.sound ?_ ?_ (fun a => ?_) h.ring_eq.1 h'.ring_eq.1
    · rw [partitioner_run, partitioner_run]
    · rw [h.policy_eq, h'.policy_eq]
    · rw [h.mem_connections_iff, h'.mem_connections_iff, hsame]
  have howners := halike.map_ownersOf_eq h.sound_members h'.sound_members
  obtain rfl : spread' = spread := h'.ring_eq.2.symm.trans h.ring_eq.2
  refine ⟨howners, fun key hkey m m' => ⟨fun a => ?_, fun chance => ?_, fun hspread => ?_⟩⟩
  · rw [← Picker.mem_map_ownersOf_iff_target h.sound_members hkey h.size_ne_zero,
      ← Picker.mem_map_ownersOf_iff_target h'.sound_members hkey h'.size_ne_zero, howners]
  · obtain ⟨a, -, htarget⟩ := Picker.exists_target_eq h.sound_members hkey h.size_ne_zero chance m
    exact ⟨a, htarget⟩
  · -- there is one owner to go to
    have hlength := h.sound_members.length_ownersOf key 1
    have hone : spread'.toNat = 1 := by rw [← h.ring_eq.2, hspread]; rfl
    obtain ⟨c, hc⟩ : ∃ c, members.ownersOf key spread'.toNat = [c] := by
      rw [← List.length_eq_one_iff, hone, hlength]
      have hsize := h.size_ne_zero
      omega
    refine ⟨c.address, fun chance => ⟨?_, ?_⟩⟩
    · exact Picker.target_eq_of_ownersOf_eq h.sound_members hkey h.size_ne_zero (by rw [hc]; rfl)
        chance m
    · exact Picker.target_eq_of_ownersOf_eq h'.sound_members hkey h'.size_ne_zero
        (by rw [howners, hc]; rfl) chance m'

/-- How far calls are spread, where the picker routes them over a ring. -/
def spread? : Picker → Option UInt8
  | .ring _ spread => some spread
  | .failing _ => none

/-- A spread can be read off only where a picker over a ring was published last. -/
theorem exists_last_of_spread? {log : List Action}
    (h : (published log).getLast?.bind (spread? ·.2) = some spread) :
    ∃ members state, (published log).getLast? = some (state, .ring members spread) := by
  obtain ⟨⟨state, picker⟩, hlast, hspread⟩ := Option.bind_eq_some_iff.mp h
  cases picker with
  | ring members spread' =>
    obtain rfl : spread' = spread := Option.some.inj hspread
    exact ⟨members, state, hlast⟩
  | failing e => cases hspread

/-- One client was told of both nodes at once. The other one saw the first of them move, had an
update rejected in which the second one comes twice, and then was told of a failing handle and a
failed resolution. -/
theorem serves_detour_agree :
    let node (addr : String) (id : String) : Address := ⟨addr, "", some id⟩
    let dial (next : Nat) (made : Nat) (a : Address) : Option Connection := some ⟨next + made, a⟩
    let callbacks : List Callback :=
      [.update (dial 0) [node "h:1" "m", node "h:2" "n"] (some ⟨2, 1⟩)]
    let callbacks' : List Callback :=
      [.update (dial 5) [node "h:9" "m"] (some ⟨3, 2⟩),
        .update (dial 6) [node "h:1" "m", node "h:2" "n", node "h:3" "n"] (some ⟨2, 0⟩),
        .update (dial 9) [node "h:2" "n", node "h:1" "m"] none,
        .report 6 .transientFailure none, .failResolution .noConnection]
    ∃ members members', Serves Ring.crowded [node "h:1" "m", node "h:2" "n"] ⟨2, 1⟩ callbacks
      (.ring members 1) ∧
      Serves Ring.crowded [node "h:2" "n", node "h:1" "m"] ⟨2, 1⟩ callbacks' (.ring members' 1) ∧
      (members'.ownersOf "key".toUTF8 2).map (·.address) =
        (members.ownersOf "key".toUTF8 2).map (·.address) := by
  intro node dial callbacks callbacks'
  obtain ⟨members, hlast⟩ :
      ∃ members state, (published (run Ring.crowded callbacks).actions).getLast? =
      some (state, .ring members 1) := exists_last_of_spread? (by decide)
  obtain ⟨members', hlast'⟩ :
      ∃ members state, (published (run Ring.crowded callbacks').actions).getLast? =
      some (state, .ring members 1) := exists_last_of_spread? (by decide)
  have hserves :
      Serves Ring.crowded [node "h:1" "m", node "h:2" "n"] ⟨2, 1⟩ callbacks (.ring members 1) :=
    ⟨⟨by decide, by decide⟩, ⟨[], _, _, [], rfl, nofun, by decide⟩, by decide, by decide, hlast⟩
  have hserves' :
      Serves Ring.crowded [node "h:2" "n", node "h:1" "m"] ⟨2, 1⟩ callbacks' (.ring members' 1) :=
    ⟨⟨by decide, by decide⟩, ⟨callbacks'.take 2, dial 9, none, callbacks'.drop 3, rfl,
      by simp [callbacks'], by decide⟩, by decide, by decide, hlast'⟩
  obtain ⟨howners, -⟩ := serves_agree hserves hserves' fun a => by simp [or_comm]
  exact ⟨members, members', hserves, hserves', howners _ 2⟩

end RingRouting.Balancer
