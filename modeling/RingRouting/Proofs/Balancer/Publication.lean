import RingRouting.Proofs.Balancer.Teardown
import RingRouting.Proofs.Ring.Preference

/-!
# What a balancer publishes

A callback changes the holdings of a balancer in many steps and may end in the middle of them.
Still, what was published last is the state and the picker that the balancer has when a callback
ends, and a picker that routes calls has the ring and the policy in force. A callback either
publishes once, as the last thing that it does, or leaves all of this alone. Main statement:
`run_publications_agree`.
-/

namespace RingRouting

/-- What was published. -/
def published (actions : List Action) : List (Connectivity × Picker) :=
  actions.filterMap fun
    | .published state picker => some (state, picker)
    | _ => none

theorem published_append (actions actions' : List Action) :
    published (actions ++ actions') = published actions ++ published actions' :=
  List.filterMap_append ..

/-! ## Calls -/

/-- A picker over a ring routes calls to members of the ring. -/
theorem Picker.mem_of_pick {members : Ring Connection} (hmembers : members.Sound) {spread : UInt8}
    {key : Option ByteArray} {chance : Chance} {m : Metrics} {c : Connection}
    (h : ((Picker.ring members spread).pick key chance m).1 = .ok c) : c ∈ members.toList := by
  simp only [pick] at h
  split at h
  next => cases h
  next owners howners =>
    split at h
    next hc =>
      cases h
      rw [((hmembers.findN_eq_ok_iff).mp howners).2] at hc
      exact Ring.mem_preference.mp (List.mem_of_mem_take (List.mem_of_getElem? hc))
    next => cases h

namespace Balancer

/-! ## Policies are always accepted -/

/-- The ring can be built anew, and is there for a policy. -/
structure Configured (b : Balancer) : Prop where
  sound : ∀ members, b.ring = some members → members.Sound
  isSome_policy : b.ring.isSome → b.policy.isSome

theorem Configured.congr {b b' : Balancer} (hb : b.Configured) (hring : b'.ring = b.ring)
    (hpolicy : b'.policy = b.policy) : b'.Configured where
  sound := hring ▸ hb.sound
  isSome_policy := by
    rw [hring, hpolicy]
    exact hb.isSome_policy

theorem configured_of_sound {b : Balancer} {members : Ring Connection} (hmembers : members.Sound)
    {p : Policy} : ({ b with ring := some members, policy := some p } : Balancer).Configured where
  sound r hr := by
    cases hr
    exact hmembers
  isSome_policy _ := rfl

/-- A policy with a factor other than zero is put in force. -/
theorem Configured.exists_configure {b : Balancer} (hb : b.Configured) {p : Policy}
    (hfactor : p.factor ≠ 0) : ∃ b', b.configure p = .ok b' ∧ b'.Configured := by
  unfold configure
  cases hring : b.ring with
  | none =>
    have hnew := Ring.new_eq_ok (μ := Connection) (p := b.partitioner) hfactor
    simp only [hnew]
    exact ⟨_, rfl, configured_of_sound (.new hnew)⟩
  | some members =>
    dsimp only
    split
    next => exact ⟨_, rfl, configured_of_sound (hb.sound members hring)⟩
    next =>
      obtain ⟨members', hrebuild, hrebuilt⟩ := (hb.sound members hring).exists_rebuild hfactor
      rw [hrebuild]
      exact ⟨_, rfl, configured_of_sound hrebuilt.sound⟩

/-- Defaults fill in a replication factor: a policy never asks for none. -/
theorem factor_withDefaults_ne_zero (p : Policy) : p.withDefaults.factor ≠ 0 := by
  show (if p.factor = 0 then Ring.defaultFactor else p.factor) ≠ 0
  split
  next => decide
  next h => exact h

/-- A configured balancer can adopt any policy and stays configured. -/
theorem Configured.exists_adopt {b : Balancer} (hb : b.Configured) (policy : Option Policy) :
    ∃ b', b.adopt policy = .ok b' ∧ b'.Configured := by
  cases policy with
  | none => exact ⟨b, rfl, hb⟩
  | some p => exact hb.exists_configure (factor_withDefaults_ne_zero p)

/-- A single step keeps the balancer configured. -/
theorem Configured.step {actions : List Action} {b b' : Balancer} (hb : b.Configured)
    (h : Step b actions b') : b'.Configured := by
  cases h with
  | @adopt _ policy hadopt =>
    obtain ⟨b'', hok, hconfigured⟩ := hb.exists_adopt policy
    rw [hadopt] at hok
    exact Except.ok.inj hok ▸ hconfigured
  | @release a c hheld =>
    simp only [Balancer.release, hheld]
    refine ⟨fun members hring => ?_, fun hsome => hb.isSome_policy (by simpa using hsome)⟩
    obtain ⟨members, hmembers, rfl⟩ := Option.map_eq_some_iff.mp hring
    split
    next hremove => exact (hb.sound members hmembers).remove (Ring.removed_of_remove hremove)
    next => exact hb.sound members hmembers
  | hold hring hadd =>
    refine ⟨fun members hsome => ?_, fun _ => hb.isSome_policy (hring ▸ rfl)⟩
    cases hsome
    exact (hb.sound _ hring).add (Ring.added_of_add hadd)
  | settle h => exact hb.congr (ring_eq_of_holdings h) (policy_eq_of_holdings h)
  | refuse | reject | track | reconnect | publish | count => exact hb.congr rfl rfl

theorem Configured.steps {actions : List Action} {b b' : Balancer} (hb : b.Configured)
    (h : Steps b actions b') : b'.Configured := by
  induction h with
  | refl => exact hb
  | cons h _ ih => exact ih (hb.step h)

/-! ## Pickers in force -/

/-- A picker that routes calls has the ring and the spread in force, and not everything is
failing. -/
def Current (b : Balancer) : Prop :=
  ∀ members spread, b.picker = .ring members spread →
    b.ring = some members ∧ b.policy.map (·.spread) = some spread ∧ b.state ≠ .transientFailure

theorem current_fail (b : Balancer) : b.fail.Current := nofun

/-- While everything is failing, no picker routes calls. -/
theorem repick_eq_fail {b : Balancer} (hstate : b.state = .transientFailure) :
    b.repick = b.fail := by
  unfold repick
  split
  next => rw [if_pos hstate]
  next => rfl

/-- A picker that is made anew has the ring and the spread in force. -/
theorem Configured.current_repick {b : Balancer} (hb : b.Configured) : b.repick.Current := by
  unfold repick
  cases hring : b.ring with
  | none => exact b.current_fail
  | some members =>
    dsimp only
    split
    next => exact b.current_fail
    next hstate =>
      intro r spread hpicker
      cases hpicker
      obtain ⟨p, hp⟩ := Option.isSome_iff_exists.mp (hb.isSome_policy (hring ▸ rfl))
      exact ⟨rfl, by simp [hp], hstate⟩

theorem Current.congr {b b' : Balancer} (h : b.Current) (hstate : b'.state = b.state)
    (hpicker : b'.picker = b.picker) (hring : b'.ring = b.ring) (hpolicy : b'.policy = b.policy) :
    b'.Current := by
  intro members spread heq
  rw [hstate, hring, hpolicy]
  exact h members spread (hpicker ▸ heq)

/-! ## How a callback ends -/

/-- The last thing that is done is to publish the balancer as it then is, with a current picker.
Nothing is published before. -/
structure Announces (o : Outcome) : Prop where
  exists_before : ∃ before, o.actions = before ++ [o.balancer.publication] ∧ published before = []
  current : o.balancer.Current

/-- Actions that publish nothing may precede an announcement. -/
theorem Announces.after {o : Outcome} (h : Announces o) {actions : List Action}
    (hnone : published actions = []) : Announces (o.after actions) := by
  obtain ⟨before, hactions, hbefore⟩ := h.exists_before
  refine ⟨⟨actions ++ before, ?_, ?_⟩, h.current⟩
  · rw [Outcome.actions_after, hactions, List.append_assoc, Outcome.balancer_after]
  · rw [published_append, hnone, hbefore, List.append_nil]

/-- What is announced is published once, and is the balancer as it then is. -/
theorem Announces.published_eq {o : Outcome} (h : Announces o) :
    published o.actions = [(o.balancer.state, o.balancer.picker)] := by
  obtain ⟨before, hactions, hbefore⟩ := h.exists_before
  rw [hactions, published_append, hbefore]
  rfl

/-- Nothing is published, and nothing changes that was. -/
structure Silent (b : Balancer) (o : Outcome) : Prop where
  published_eq : published o.actions = []
  state_eq : o.balancer.state = b.state
  picker_eq : o.balancer.picker = b.picker
  ring_eq : o.balancer.ring = b.ring
  policy_eq : o.balancer.policy = b.policy

theorem silent_of_balancer (b : Balancer) {actions : List Action} (hnone : published actions = []) :
    Silent b { balancer := b, actions } :=
  ⟨hnone, rfl, rfl, rfl, rfl⟩

/-! ## The parts of an update -/

theorem published_releaseAll (as : List Address) (b : Balancer) :
    published (b.releaseAll as).actions = [] := by
  induction as generalizing b with
  | nil => rfl
  | cons a rest ih =>
    have hrelease : published (b.release a).actions = [] := by
      unfold release
      split <;> rfl
    rw [releaseAll, Outcome.actions_after, published_append, hrelease, ih, List.append_nil]

/-- Where there is a ring, handles are made in silence, up to one that the ring does not take in. -/
theorem published_dialAll (dial : Nat → Address → Option Connection) (as : List Address)
    {b : Balancer} (hring : b.ring.isSome) (made : Nat) :
    let o := b.dialAll dial made as
    (o.error = none ∧ published o.actions = []) ∨ (o.error ≠ none ∧ Announces o) := by
  induction as generalizing b made with
  | nil => exact .inl ⟨rfl, rfl⟩
  | cons a rest ih =>
    have hafter {o : Outcome} {actions : List Action} (hnone : published actions = [])
        (h : (o.error = none ∧ published o.actions = []) ∨ (o.error ≠ none ∧ Announces o)) :
        ((o.after actions).error = none ∧ published (o.after actions).actions = []) ∨
          ((o.after actions).error ≠ none ∧ Announces (o.after actions)) := by
      rcases h with ⟨herror, hquiet⟩ | ⟨herror, hannounces⟩
      · refine .inl ⟨herror, ?_⟩
        rw [Outcome.actions_after, published_append, hnone, hquiet, List.append_nil]
      · exact .inr ⟨herror, hannounces.after hnone⟩
    obtain ⟨members, hring⟩ := Option.isSome_iff_exists.mp hring
    unfold Balancer.dialAll
    cases dial made a with
    | none => exact hafter rfl (ih (hring ▸ rfl) made)
    | some c =>
      simp only [hring]
      cases members.add c with
      | ok members' => exact hafter rfl (ih rfl (made + 1))
      | error e => exact .inr ⟨nofun, ⟨[.dialed c a, .closed c.id], rfl, rfl⟩, nofun⟩

/-- Where no connection is held a failed resolution is announced. -/
theorem announces_failResolution {b : Balancer} (hempty : b.connections.isEmpty)
    (e : BalancerError) :
    Announces (b.failResolution e) := by
  unfold failResolution
  simp only [hempty, if_true]
  exact ⟨⟨[], rfl, rfl⟩, current_fail _⟩

/-- A callback that has got as far as this publishes, if no connection is left where no address is
desired. -/
theorem Configured.announces_conclude {b : Balancer} (hb : b.Configured) {noAddresses : Bool}
    (hempty : noAddresses → b.connections.isEmpty) : Announces (b.conclude noAddresses) := by
  have hcount : published (b.ring.toList.map fun members => Action.counted members.size) = [] := by
    cases b.ring <;> rfl
  unfold conclude
  split
  next h =>
    obtain ⟨hbefore, hcurrent⟩ := (announces_failResolution (hempty h)
      (.resolver "produced zero addresses")).after hcount
    exact ⟨hbefore, hcurrent⟩
  next => exact ⟨⟨_, rfl, hcount⟩, hb.current_repick⟩

/-- What is stale is held and not desired. -/
theorem mem_stale {b : Balancer} {desired : Std.ExtTreeSet Address} {a : Address} :
    a ∈ b.stale desired ↔ a ∈ b.connections ∧ a ∉ desired := by
  rw [stale, List.mem_filter, Std.ExtTreeMap.mem_keys, Bool.not_eq_true', ← Bool.not_eq_true,
    Std.ExtTreeSet.contains_iff_mem]

/-- Where no address is desired no connection is left. -/
theorem isEmpty_releaseAll_stale (b : Balancer) {desired : Std.ExtTreeSet Address}
    (hdesired : desired.isEmpty) :
    (b.releaseAll (b.stale desired)).balancer.connections.isEmpty := by
  rw [Std.ExtTreeMap.isEmpty_iff]
  refine Std.ExtTreeMap.ext_getElem? fun a => ?_
  rw [getElem?_releaseAll, Std.ExtTreeMap.getElem?_empty]
  split
  next => rfl
  next hstale =>
    rw [mem_stale, Std.ExtTreeSet.isEmpty_iff.mp hdesired] at hstale
    simpa using hstale

/-- However an update ends where there is a ring, that is announced. -/
theorem Configured.announces_reconcile {b : Balancer} (hb : b.Configured)
    (dial : Nat → Address → Option Connection) (desired : Std.ExtTreeSet Address)
    (hring : b.ring.isSome) : Announces (b.reconcile dial desired) := by
  have hquiet := published_releaseAll (b.stale desired) b
  have hreleased := hb.steps (b.steps_releaseAll (b.stale desired))
  rw [← isSome_ring_releaseAll (b.stale desired)] at hring
  obtain ⟨members, hmembers⟩ := Option.isSome_iff_exists.mp hring
  unfold Balancer.reconcile
  dsimp only
  generalize hmissing : desired.toList.filter
    (!(b.releaseAll (b.stale desired)).balancer.connections.contains ·) = missing
  have hdialed := hreleased.steps (steps_dialAll dial missing hmembers 0)
  rcases published_dialAll dial missing hring 0 with ⟨herror, hnone⟩ | ⟨herror, hannounces⟩
  · simp only [Outcome.error_after, herror]
    refine Announces.after ?_ ?_
    · refine Configured.announces_conclude (hdialed.congr ?_ ?_) fun hdesired => ?_
      · split <;> rfl
      · split <;> rfl
      · have hnil : missing = [] := by
          rw [← hmissing, Std.ExtTreeSet.isEmpty_iff.mp hdesired]
          rfl
        subst hnil
        split <;> exact b.isEmpty_releaseAll_stale hdesired
    · rw [Outcome.actions_after, published_append, hquiet, hnone, List.append_nil]
  · obtain ⟨e, he⟩ := Option.ne_none_iff_exists'.mp herror
    simp only [Outcome.error_after, he]
    exact hannounces.after hquiet

/-! ## Callbacks -/

/-- Every update is announced, whether or not it is accepted. -/
theorem Configured.announces_update {b : Balancer} (hb : b.Configured)
    (dial : Nat → Address → Option Connection) (addresses : List Address) (policy : Option Policy) :
    Announces (b.update dial addresses policy) := by
  have hcleared : ({ b with resolverError := none } : Balancer).Configured := hb.congr rfl rfl
  obtain ⟨b', hadopt, hconfigured⟩ := hcleared.exists_adopt policy
  unfold Balancer.update
  simp only [hadopt]
  split
  next => exact ⟨⟨[], rfl, rfl⟩, current_fail b'⟩
  next hring =>
    rw [Option.isNone_iff_eq_none, ← ne_eq, Option.ne_none_iff_isSome] at hring
    exact hconfigured.announces_reconcile dial _ hring

/-- A failed resolution is announced, or leaves everything as it was published. -/
theorem Current.failResolution {b : Balancer} (hb : b.Current) (e : BalancerError) :
    Announces (b.failResolution e) ∨ Silent b (b.failResolution e) := by
  cases hempty : b.connections.isEmpty with
  | true => exact .inl (announces_failResolution hempty e)
  | false =>
    -- only the error is noted, and published again is what was published already
    unfold Balancer.failResolution
    simp only [hempty, Bool.false_eq_true, if_false]
    by_cases hstate : b.state = .transientFailure
    · rw [if_pos hstate]
      exact .inl ⟨⟨[], rfl, rfl⟩, hb.congr rfl rfl rfl rfl⟩
    · rw [if_neg hstate]
      exact .inr ⟨rfl, rfl, rfl, rfl, rfl⟩

/-- What a report does before it publishes. -/
theorem published_reconnect (id : Nat) (new : Connectivity) :
    published (if new = .idle then [.connect id] else []) = [] := by
  split <;> rfl

/-- A report is announced, or leaves everything as it was published. -/
theorem Configured.report {b : Balancer} (hb : b.Configured) (id : Nat) (new : Connectivity)
    (cause : Option BalancerError) :
    Announces (b.report id new cause) ∨ Silent b (b.report id new cause) := by
  have hreconnect := published_reconnect id new
  have hreported := b.reported_report id new cause
  generalize b.report id new cause = o at hreported ⊢
  cases hreported with
  | pass => exact .inr (b.silent_of_balancer rfl)
  | skip => exact .inr (b.silent_of_balancer hreconnect)
  | record hold =>
    exact .inl ⟨⟨_, rfl, hreconnect⟩, (hb.step (.track hold new cause)).current_repick⟩

/-- A callback publishes once, at its end, or leaves alone what was published. -/
theorem announces_or_silent_handle {b : Balancer} (hb : b.Configured) (hcurrent : b.Current)
    (callback : Callback) : Announces (b.handle callback) ∨ Silent b (b.handle callback) := by
  cases callback with
  | update dial addresses policy => exact .inl (hb.announces_update dial addresses policy)
  | failResolution e => exact hcurrent.failResolution e
  | report id state cause => exact hb.report id state cause
  | close => exact .inr (b.silent_of_balancer rfl)
  | exitIdle => exact .inr (b.silent_of_balancer rfl)

/-! ## Histories -/

/-- Every history leaves the balancer configured. -/
theorem configured_run (p : Partitioner) (callbacks : List Callback) :
    (run p callbacks).balancer.Configured := by
  refine run_induction (P := fun _ b => b.Configured) ?_ (fun hb h => hb.step h) callbacks
  exact ⟨nofun, nofun⟩

/-- What was published last is the balancer as it is. -/
structure Agreed (log : List Action) (b : Balancer) : Prop where
  last_eq : ∀ last, (published log).getLast? = some last → last = (b.state, b.picker)
  current : b.Current

/-- After every history, what was published last is the balancer as it is. -/
theorem agreed_run (p : Partitioner) (callbacks : List Callback) :
    (run p callbacks).balancer.Agreed (run p callbacks).actions := by
  induction callbacks using List.reverseRecOn with
  | nil => exact ⟨nofun, nofun⟩
  | append_singleton callbacks callback ih =>
    rw [run_concat]
    rcases announces_or_silent_handle (configured_run p callbacks) ih.current callback with h | h
    · refine ⟨fun last hlast => ?_, h.current⟩
      rw [Outcome.actions_after, published_append, h.published_eq, List.getLast?_concat] at hlast
      exact (Option.some.inj hlast).symm
    · refine ⟨fun last hlast => ?_, ih.current.congr h.state_eq h.picker_eq h.ring_eq h.policy_eq⟩
      rw [Outcome.actions_after, published_append, h.published_eq, List.append_nil] at hlast
      rw [Outcome.balancer_after, h.state_eq, h.picker_eq]
      exact ih.last_eq last hlast

/-- Once something was published, it is the state and the picker of the balancer that were published
last. -/
theorem getLast?_published_run (p : Partitioner) (callbacks : List Callback)
    (hsome : 0 < (published (run p callbacks).actions).length) :
    (published (run p callbacks).actions).getLast? =
      some ((run p callbacks).balancer.state, (run p callbacks).balancer.picker) := by
  have hlast := List.getLast?_eq_some_getLast (List.ne_nil_of_length_pos hsome)
  rw [hlast, (agreed_run p callbacks).last_eq _ hlast]

/-- Calls go to handles that are held. -/
theorem exists_connection_of_pick (p : Partitioner) (callbacks : List Callback)
    (hhonest : Honest (run p callbacks).actions) {state : Connectivity} {picker : Picker}
    (hlast : (published (run p callbacks).actions).getLast? = some (state, picker))
    {key : Option ByteArray} {chance : Chance} {m : Metrics} {c : Connection}
    (hc : (picker.pick key chance m).1 = .ok c) :
    ∃ a : Address, (run p callbacks).balancer.connections[a]? = some c := by
  have hagreed := agreed_run p callbacks
  obtain ⟨-, rfl⟩ := Prod.mk.inj (hagreed.last_eq _ hlast)
  cases hpicker : (run p callbacks).balancer.picker with
  | failing e =>
    rw [hpicker] at hc
    cases hc
  | ring members spread =>
    rw [hpicker] at hc
    obtain ⟨hring, -⟩ := hagreed.current members spread hpicker
    have hcarries := (soundAfter_run p callbacks hhonest).sound.carries members hring
    obtain ⟨key', hget⟩ := Ring.mem_toList.mp (Picker.mem_of_pick hcarries.sound hc)
    obtain ⟨a, ha, -⟩ := (hcarries.mirrors key' c).mp hget
    exact ⟨a, ha⟩

/-- How often callbacks publish, and what becomes of a call that is routed with what was published
last. -/
theorem run_publications_agree (p : Partitioner) (callbacks : List Callback) :
    let o := run p callbacks
    (∀ before callback later, callbacks = before ++ callback :: later →
      let said := published ((run p before).balancer.handle callback).actions
      said.length ≤ 1 ∧
        ∀ dial addresses policy, callback = .update dial addresses policy → said.length = 1) ∧
      ∀ state picker, (published o.actions).getLast? = some (state, picker) →
        state = o.balancer.state ∧ picker = o.balancer.picker ∧
        (∀ members spread, picker = .ring members spread → o.balancer.ring = some members ∧
          o.balancer.policy.map (·.spread) = some spread ∧ state ≠ .transientFailure) ∧
        (state = .transientFailure → ∀ key chance m, ∃ e, (picker.pick key chance m).1 = .error e) ∧
        (Honest o.actions → ∀ key chance m c, (picker.pick key chance m).1 = .ok c →
          c.id ∈ o.balancer.held ∧ c.id ∉ tornDown o.actions) := by
  intro o
  refine ⟨fun before callback later _ => ⟨?_, ?_⟩, fun state picker hlast => ?_⟩
  · rcases announces_or_silent_handle (configured_run p before) (agreed_run p before).current
      callback with h | h
    · rw [h.published_eq]
      exact Nat.le_refl 1
    · rw [h.published_eq]
      exact Nat.zero_le 1
  · rintro dial addresses policy rfl
    have hannounces := (configured_run p before).announces_update dial addresses policy
    rw [Balancer.handle, hannounces.published_eq, List.length_singleton]
  · have hagreed := agreed_run p callbacks
    obtain ⟨rfl, rfl⟩ := Prod.mk.inj (hagreed.last_eq _ hlast)
    refine ⟨rfl, rfl, hagreed.current, fun hstate key chance m => ?_,
      fun hhonest key chance m c hc => ?_⟩
    · cases hpicker : o.balancer.picker with
      | ring members spread => exact absurd hstate (hagreed.current members spread hpicker).2.2
      | failing e => exact ⟨e, rfl⟩
    · obtain ⟨a, ha⟩ := exists_connection_of_pick p callbacks hhonest hlast hc
      have hheld : c.id ∈ o.balancer.held := mem_held.mpr ⟨a, c, ha, rfl⟩
      have hnodup := (accounted_run p callbacks hhonest).perm.nodup_iff.mp hhonest.nodup
      exact ⟨hheld, fun htorn => (List.nodup_append.mp hnodup).2.2 _ htorn _ hheld rfl⟩

/-- A node has moved and resolution has failed since. Calls go on to the handle that took its place,
and to none that was torn down. -/
theorem run_moved_publications_agree :
    let node (addr : String) : Address := ⟨addr, "", some "n"⟩
    let callbacks : List Callback :=
      [.update (fun _ a => some ⟨0, a⟩) [node "h:1"] (some ⟨2, 3⟩),
        .update (fun _ a => some ⟨1, a⟩) [node "h:2"] none, .failResolution .noConnection]
    let o := run Ring.crowded callbacks
    (published o.actions).length = 2 ∧ tornDown o.actions = [0] ∧
      ∀ state picker, (published o.actions).getLast? = some (state, picker) → state = .idle ∧
        ∀ key chance m c, (picker.pick key chance m).1 = .ok c → c.id = 1 := by
  intro node callbacks o
  obtain ⟨-, hlast⟩ := run_publications_agree Ring.crowded callbacks
  refine ⟨by decide, by decide, fun state picker h => ?_⟩
  obtain ⟨hstate, -, -, -, hreach⟩ := hlast state picker h
  refine ⟨hstate.trans (by decide), fun key chance m c hc => ?_⟩
  have hheld : o.balancer.held = [1] := by decide
  obtain ⟨hc, -⟩ := hreach ⟨by decide, by decide⟩ key chance m c hc
  exact List.mem_singleton.mp (hheld ▸ hc)

end Balancer

end RingRouting
