import RingRouting.Proofs.Balancer.Update

/-!
# The state of all connections together

A balancer keeps the state of all its connections as a value of its own, next to the states of the
single handles. It takes the state down when a report counts and at the end of an update that
changes anything. An update that ends in the middle, because the ring does not take in a handle, has
changed connections by then and does not take the state down; nor does an update after it that finds
nothing to change. So the state lags behind from there on, until a callback takes it down. Main
statements: `run_state_eq_best`, and `run_rejected_state_lags`, that it does lag.
-/

namespace RingRouting

/-- The state of connections in these states together: that of the best of them. -/
def Connectivity.best (states : List Connectivity) : Connectivity :=
  if .ready ∈ states then .ready
  else if .connecting ∈ states then .connecting
  else if .idle ∈ states then .idle
  else .transientFailure

namespace Balancer

/-- Under `Counts` the tally computes the best of the recorded states. -/
theorem Counts.aggregate_eq {tally : Tally} {states : Std.ExtTreeMap Nat Connectivity}
    (h : Counts tally states) : tally.aggregate = .best states.values := by
  have hpos (s : Connectivity) : s ∈ states.values ↔ 0 < tally.count s := by
    rw [h, List.count_pos_iff]
  simp only [Connectivity.best, hpos]
  rfl

/-! ## Callbacks that take the state down -/

/-- The report of a new state counts. A handle that is failing stays so until it is ready. -/
def Records (b : Balancer) (id : Nat) (new : Connectivity) : Prop :=
  ∃ old, b.states[id]? = some old ∧ ¬(old = .transientFailure ∧ (new = .connecting ∨ new = .idle))

/-- The callback is a report that counts, or an update that ends without an error. -/
def Accepts (b : Balancer) : Callback → Prop
  | .update dial addresses policy => (b.update dial addresses policy).error = none
  | .report id new _ => b.Records id new
  | .failResolution _ | .close | .exitIdle => False

/-- Besides, if it is an update, connections are not held for just the desired addresses already. -/
def TakesDown (b : Balancer) (callback : Callback) : Prop :=
  b.Accepts callback ∧ ∀ dial addresses policy, callback = .update dial addresses policy →
    ¬∀ a : Address, a ∈ b.connections ↔ a ∈ addresses

/-- The ring does not take in a handle that was made in the callback. -/
def Rejects (b : Balancer) (callback : Callback) : Prop :=
  ∃ e, (b.handle callback).error = some (.ring e)

/-- The connections, their states and the state of all together are the same. -/
structure Kept (b b' : Balancer) : Prop where
  state_eq : b'.state = b.state
  tally_eq : b'.tally = b.tally
  states_eq : b'.states = b.states
  connections_eq : b'.connections = b.connections

/-- What a callback that is not rejected does to the state of all connections. -/
inductive Summed (b : Balancer) (callback : Callback) : Prop
  /-- It takes it down. -/
  | taken (htakes : b.TakesDown callback)
      (hstate : (b.handle callback).balancer.state = (b.handle callback).balancer.tally.aggregate)
  /-- It leaves it as it is. An update that is accepted leaves it so only where a connection is
  held. -/
  | kept (htakes : ¬b.TakesDown callback) (hkept : Kept b (b.handle callback).balancer)
      (hheld : b.Accepts callback → b.connections ≠ ∅)
  /-- No connection is left. -/
  | emptied (haccepts : ¬b.Accepts callback)
      (hempty : (b.handle callback).balancer.connections = ∅)

theorem Kept.trans {b b' b'' : Balancer} (h : Kept b b') (h' : Kept b' b'') : Kept b b'' where
  state_eq := h'.state_eq.trans h.state_eq
  tally_eq := h'.tally_eq.trans h.tally_eq
  states_eq := h'.states_eq.trans h.states_eq
  connections_eq := h'.connections_eq.trans h.connections_eq

theorem kept_fail (b : Balancer) : Kept b b.fail :=
  ⟨rfl, rfl, rfl, rfl⟩

/-- A new picker touches no recorded state. -/
theorem kept_repick (b : Balancer) : Kept b b.repick := by
  unfold repick
  split
  next =>
    split
    next => exact b.kept_fail
    next => exact ⟨rfl, rfl, rfl, rfl⟩
  next => exact b.kept_fail

theorem kept_adopt {b b' : Balancer} {policy : Option Policy} (h : b.adopt policy = .ok b') :
    Kept b b' := by
  obtain ⟨policy', ring, rfl⟩ := exists_adopt_eq h
  exact ⟨rfl, rfl, rfl, rfl⟩

/-! ## Updates -/

/-- What an update does to the state of all connections, if the ring takes in all handles. -/
theorem Reconciled.summed {dial : Nat → Address → Option Connection} {b : Balancer}
    {desired : Std.ExtTreeSet Address} {o : Outcome} (h : Reconciled dial b desired o)
    (haccepted : ∀ e, o.error ≠ some (.ring e)) :
    (o.error ≠ none ∧ o.balancer.connections = ∅) ∨
      (o.error = none ∧ desired.isEmpty = false ∧ (∀ a : Address, a ∈ b.connections ↔ a ∈ desired) ∧
        Kept b o.balancer) ∨
      (o.error = none ∧ (¬∀ a : Address, a ∈ b.connections ↔ a ∈ desired) ∧
        o.balancer.state = o.balancer.tally.aggregate) := by
  cases h with
  | @reject _ _ _ _ _ _ e => exact absurd rfl (haccepted e)
  | @settle b' settled hdials hsettled =>
    cases hempty : desired.isEmpty with
    | true =>
      -- nothing is desired, so that nothing is held
      refine .inl ⟨nofun, Std.ExtTreeMap.ext_getElem? fun a => ?_⟩
      have hconnections : (settled.conclude true).balancer.connections = b'.connections :=
        connections_eq_of_holdings (holdings_settled true hsettled)
      rw [Outcome.balancer_after, hconnections, Std.ExtTreeMap.getElem?_empty]
      refine Option.eq_none_iff_forall_ne_some.mpr fun c hc => ?_
      rw [Std.ExtTreeSet.isEmpty_iff] at hempty
      rcases (hdials.getElem?_of_retained (List.prefix_refl _) a c).mp hc with hnew | ⟨hdesired, -⟩
      · have hmissing := (mem_missing.mp (mem_of_mem_answers hnew)).1
        simp [hempty] at hmissing
      · simp [hempty] at hdesired
    | false =>
      refine .inr ?_
      have hconclude : settled.conclude false = { balancer := settled.repick, actions := _ } := rfl
      rw [hconclude, Outcome.balancer_after, Outcome.error_after]
      by_cases hunchanged : ∀ a : Address, a ∈ b.connections ↔ a ∈ desired
      · rw [if_pos (isEmpty_stale_and_missing_iff.mpr hunchanged),
          hdials.eq_of_unchanged hunchanged] at hsettled
        exact .inl ⟨rfl, rfl, hunchanged, hsettled ▸ settled.kept_repick⟩
      · rw [if_neg (isEmpty_stale_and_missing_iff.not.mpr hunchanged)] at hsettled
        refine .inr ⟨rfl, hunchanged, ?_⟩
        rw [settled.kept_repick.state_eq, settled.kept_repick.tally_eq, hsettled]

/-- What an update that is not rejected does to the state of all connections. -/
theorem Configured.summed_update {b : Balancer} (hb : b.Configured)
    (dial : Nat → Address → Option Connection) (addresses : List Address) (policy : Option Policy)
    (haccepted : ¬b.Rejects (.update dial addresses policy)) :
    b.Summed (.update dial addresses policy) := by
  have hnot (h : (b.update dial addresses policy).error ≠ none) :
      ¬b.Accepts (.update dial addresses policy) := h
  have hupdated := hb.updated_update dial addresses policy
  generalize ho : b.update dial addresses policy = o at hupdated hnot
  have hhandle : b.handle (.update dial addresses policy) = o := ho
  cases hupdated with
  | @noRing b' hadopt hring =>
    have hcleared : Kept b ({ b with resolverError := none } : Balancer) := ⟨rfl, rfl, rfl, rfl⟩
    refine .kept (fun h => hnot nofun h.1) ?_ fun h => absurd h (hnot nofun)
    exact hhandle ▸ (hcleared.trans (kept_adopt hadopt)).trans b'.kept_fail
  | @reconcile b' _ hadopt hring hreconciled =>
    have hcleared : Kept b ({ b with resolverError := none } : Balancer) := ⟨rfl, rfl, rfl, rfl⟩
    have hadopted := hcleared.trans (kept_adopt hadopt)
    have hsame (a : Address) :
        (a ∈ b'.connections ↔ a ∈ (.ofList addresses : Std.ExtTreeSet Address)) ↔
        (a ∈ b.connections ↔ a ∈ addresses) := by
      rw [hadopted.connections_eq, mem_ofList]
    have hring (e : RingError) (herror : o.error = some (.ring e)) : False :=
      haccepted ⟨e, hhandle ▸ herror⟩
    rcases hreconciled.summed hring with ⟨herror, hempty⟩ | ⟨herror, hdesired, hunchanged, hkept⟩ |
        ⟨herror, hchanged, hstate⟩
    · exact .emptied (hnot herror) (hhandle ▸ hempty)
    · simp only [hsame] at hunchanged
      refine .kept (fun h => h.2 dial addresses policy rfl hunchanged)
        (hhandle ▸ hadopted.trans hkept) ?_
      -- an address is desired, and so one is held
      intro _ hnone
      rw [← Bool.not_eq_true, isEmpty_ofList] at hdesired
      obtain ⟨a, ha⟩ := List.exists_mem_of_ne_nil _ hdesired
      have hheld := (hunchanged a).mpr ha
      simp [hnone] at hheld
    · simp only [hsame] at hchanged
      have haccepts : b.Accepts (.update dial addresses policy) :=
        (congrArg Outcome.error ho).trans herror
      refine .taken ⟨haccepts, fun _ _ _ heq => ?_⟩ (hhandle ▸ hstate)
      cases heq
      exact hchanged

/-! ## Other callbacks -/

/-- A report that counts takes the state down, and any other changes nothing. -/
theorem summed_report (b : Balancer) (id : Nat) (new : Connectivity)
    (cause : Option BalancerError) :
    b.Summed (.report id new cause) := by
  have hskipped (hnot : ¬b.Records id new)
      (hkept : Kept b (b.report id new cause).balancer) : b.Summed (.report id new cause) :=
    .kept (fun h => hnot h.1) hkept fun h => absurd h hnot
  have hreported := b.reported_report id new cause
  generalize ho : b.report id new cause = o at hreported hskipped
  have hhandle : b.handle (.report id new cause) = o := ho
  cases hreported with
  | pass hnone =>
    exact hskipped (fun ⟨old, hold, _⟩ => by simp [hnone] at hold) ⟨rfl, rfl, rfl, rfl⟩
  | skip hold hstays =>
    refine hskipped (fun ⟨old, hold', hcounts⟩ => hcounts ?_) ⟨rfl, rfl, rfl, rfl⟩
    rw [hold, Option.some.injEq] at hold'
    exact hold' ▸ hstays
  | @record old hold hcounts =>
    have hkept := (b.track id old new cause).kept_repick
    refine .taken ⟨⟨old, hold, hcounts⟩, nofun⟩ ?_
    rw [hhandle, hkept.state_eq, hkept.tally_eq]
    rfl

/-- A failed resolution leaves the state as it is, unless no connection is held. -/
theorem summed_failResolution (b : Balancer) (e : BalancerError) :
    b.Summed (.failResolution e) := by
  cases hempty : b.connections.isEmpty with
  | true =>
    refine .emptied id ?_
    have hconnections : (b.failResolution e).balancer.connections = b.connections :=
      connections_eq_of_holdings (b.holdings_failResolution e)
    exact hconnections.trans (Std.ExtTreeMap.isEmpty_iff.mp hempty)
  | false =>
    refine .kept And.left ?_ False.elim
    simp only [handle, Balancer.failResolution, hempty, Bool.false_eq_true, if_false]
    exact ⟨rfl, rfl, rfl, rfl⟩

/-- What a callback that is not rejected does to the state of all connections. -/
theorem Configured.summed_handle {b : Balancer} (hb : b.Configured) {callback : Callback}
    (haccepted : ¬b.Rejects callback) : b.Summed callback := by
  cases callback with
  | update dial addresses policy => exact hb.summed_update dial addresses policy haccepted
  | failResolution e => exact b.summed_failResolution e
  | report id new cause => exact b.summed_report id new cause
  | close | exitIdle => exact .kept And.left ⟨rfl, rfl, rfl, rfl⟩ False.elim

/-- A callback that is accepted publishes. -/
theorem Configured.announces_of_accepts {b : Balancer} (hb : b.Configured) {callback : Callback}
    (h : b.Accepts callback) : Announces (b.handle callback) := by
  cases callback with
  | update dial addresses policy => exact hb.announces_update dial addresses policy
  | report id new cause =>
    obtain ⟨old, hold, hnot⟩ := h
    simp only [handle, Balancer.report, hold, if_neg hnot]
    exact ⟨⟨_, rfl, published_reconnect id new⟩, (hb.step (.track hold new cause)).current_repick⟩
  | failResolution | close | exitIdle => exact h.elim

/-! ## Histories -/

/-- The state lags behind: a handle was rejected, and no callback has taken the state down since. -/
inductive Lagging (p : Partitioner) : List Callback → Prop
  | reject {callbacks : List Callback} {callback : Callback}
      (h : (run p callbacks).balancer.Rejects callback) : Lagging p (callbacks ++ [callback])
  | leave {callbacks : List Callback} {callback : Callback} (hbefore : Lagging p callbacks)
      (h : ¬(run p callbacks).balancer.TakesDown callback) : Lagging p (callbacks ++ [callback])

/-- The state is that of all connections together. It is nothing in particular where none is
held. -/
def UpToDate (b : Balancer) : Prop :=
  b.connections = ∅ ∨ b.state = b.tally.aggregate

/-- A state that is taken down is up to date, and one that is left stays so. -/
theorem Summed.upToDate {b : Balancer} {callback : Callback} (h : b.Summed callback)
    (hbefore : b.TakesDown callback ∨ b.UpToDate) : (b.handle callback).balancer.UpToDate := by
  cases h with
  | taken htakes hstate => exact .inr hstate
  | kept htakes hkept hheld =>
    rw [UpToDate, hkept.connections_eq, hkept.state_eq, hkept.tally_eq]
    exact hbefore.resolve_left htakes
  | emptied haccepts hempty => exact .inl hempty

/-- A state that does not lag behind is up to date, by induction over the history. -/
theorem upToDate_run (p : Partitioner) (callbacks : List Callback) (h : ¬Lagging p callbacks) :
    (run p callbacks).balancer.UpToDate := by
  induction callbacks using List.reverseRecOn with
  | nil => exact .inl rfl
  | append_singleton callbacks callback ih =>
    rw [run_concat]
    refine ((configured_run p callbacks).summed_handle fun hrejects =>
      h (.reject hrejects)).upToDate ?_
    by_cases htakes : (run p callbacks).balancer.TakesDown callback
    · exact .inl htakes
    · exact .inr (ih fun hbefore => h (.leave hbefore htakes))

theorem Accepts.not_rejects {b : Balancer} {callback : Callback} (h : b.Accepts callback) :
    ¬b.Rejects callback := by
  intro ⟨e, he⟩
  cases callback with
  | update dial addresses policy =>
    rw [show (b.handle (.update dial addresses policy)).error = none from h] at he
    cases he
  | report id new cause =>
    obtain ⟨old, hold, hnot⟩ := h
    simp only [handle, Balancer.report, hold, if_neg hnot] at he
    cases he
  | failResolution | close | exitIdle => exact h

/-- What a callback that is accepted publishes as the state of all connections. -/
theorem run_state_eq_best (p : Partitioner) (callbacks : List Callback) (callback : Callback)
    (hhonest : Honest (run p (callbacks ++ [callback])).actions) :
    let b := (run p callbacks).balancer
    let o := b.handle callback
    b.Accepts callback →
      published o.actions = [(o.balancer.state, o.balancer.picker)] ∧
        (b.TakesDown callback ∨ ¬Lagging p callbacks →
          o.balancer.state = .best o.balancer.states.values) ∧
        (¬b.TakesDown callback → o.balancer.state = b.state ∧ o.balancer.states = b.states) := by
  intro b o haccepts
  have hb : b.Configured := configured_run p callbacks
  have hsummed := hb.summed_handle haccepts.not_rejects
  have hcounts : Counts o.balancer.tally o.balancer.states := by
    have hsound := (soundAfter_run p (callbacks ++ [callback]) hhonest).sound
    rw [run_concat] at hsound
    exact hsound.counts
  refine ⟨(hb.announces_of_accepts haccepts).published_eq, fun htimely => ?_, fun htakes => ?_⟩
  · rw [← hcounts.aggregate_eq]
    cases hsummed with
    | taken htakes hstate => exact hstate
    | kept htakes hkept hheld =>
      have hbefore :=
        (upToDate_run p callbacks (htimely.resolve_left htakes)).resolve_left (hheld haccepts)
      exact hkept.state_eq.trans (hbefore.trans (congrArg _ hkept.tally_eq.symm))
    | emptied hnot hempty => exact absurd haccepts hnot
  · cases hsummed with
    | taken h hstate => exact absurd h htakes
    | kept _ hkept hheld => exact ⟨hkept.state_eq, hkept.states_eq⟩
    | emptied hnot hempty => exact absurd haccepts hnot

/-- A node that is failing stays when another one comes twice. The ring takes in the first of its
two handles, and not the second, so that the update ends with the state as it was. When the first of
its addresses is all that is left of the node, there is nothing to change, and failing is what the
update publishes, where an idle connection is held. -/
theorem run_rejected_state_lags :
    let node (addr : String) (id : String) : Address := ⟨addr, "", some id⟩
    let callbacks : List Callback :=
      [.update (fun _ a => some ⟨0, a⟩) [node "h:0" "m"] (some ⟨2, 1⟩),
        .report 0 .transientFailure none,
        .update (fun made a => some ⟨1 + made, a⟩) [node "h:0" "m", node "h:1" "n", node "h:2" "n"]
          none]
    let callback : Callback := .update (fun _ _ => none) [node "h:0" "m", node "h:1" "n"] none
    let b := (run Ring.crowded callbacks).balancer
    let o := b.handle callback
    Honest (run Ring.crowded (callbacks ++ [callback])).actions ∧ b.Accepts callback ∧
      (published o.actions).map (·.1) = [.transientFailure] ∧ o.balancer.state = .transientFailure ∧
      o.balancer.states.values = [.transientFailure, .idle] ∧
      Connectivity.best o.balancer.states.values = .idle := by
  intro node callbacks callback b o
  have haccepts : (b.handle callback).error = none := by decide
  exact ⟨⟨by decide, by decide⟩, haccepts, by decide, by decide, by decide, by decide⟩

/-- The next report that counts takes the state down again. -/
theorem run_rejected_reported_state_eq :
    let node (addr : String) (id : String) : Address := ⟨addr, "", some id⟩
    let callbacks : List Callback :=
      [.update (fun made a => some ⟨made, a⟩) [node "h:1" "n", node "h:2" "n"] (some ⟨2, 1⟩),
        .update (fun _ _ => none) [node "h:1" "n"] none]
    let b := (run Ring.crowded callbacks).balancer
    let o := b.handle (.report 0 .idle none)
    b.state = .connecting ∧ o.balancer.state = .idle := by
  intro node callbacks b o
  obtain ⟨-, htaken, -⟩ := run_state_eq_best Ring.crowded callbacks (.report 0 .idle none)
    ⟨by decide, by decide⟩ ⟨.idle, by decide, by decide⟩
  refine ⟨by decide, (htaken (.inl ⟨⟨.idle, by decide, by decide⟩, nofun⟩)).trans (by decide)⟩

end Balancer

end RingRouting
