import RingRouting.Proofs.Balancer.Agreement
import RingRouting.Proofs.Balancer.Turnover

/-!
# What is recorded of a handle

What is recorded of a handle depends on what the handle itself reported since it was made, however
its reports are mixed with those of others and with updates: an update keeps the record of a handle
that stays, and a report changes the record of one handle. The same goes for how often the handle
was told to connect. While everything is failing, only a handle that gets ready changes that. Main
statement: `run_records_reports`.
-/

namespace RingRouting.Balancer

/-! ## Reports about one handle -/

/-- What is recorded of a handle once it reports a state, where `old` was recorded before. One that
is failing stays so until it is ready, and of one that is shut down nothing is recorded any more. -/
def heard (old : Option Connectivity) (new : Connectivity) : Option Connectivity :=
  old.bind fun old =>
    if old = .transientFailure ∧ (new = .connecting ∨ new = .idle) then some old
    else if new = .shutdown then none
    else some new

/-- What is recorded of a handle that reported these states since it was made. It is idle at
first. -/
def recordedAfter (reports : List Connectivity) : Option Connectivity :=
  reports.foldl heard (some .idle)

/-- How often a handle was told to connect that reported these states since it was made: at first,
and whenever it reported to be idle before it was shut down. -/
def timesRequested (reports : List Connectivity) : Nat :=
  1 + (reports.takeWhile (· ≠ .shutdown)).count .idle

/-- The states that callbacks report of a handle. -/
def reportsOn (id : Nat) (callbacks : List Callback) : List Connectivity :=
  callbacks.filterMap fun
    | .report id' new _ => if id' = id then some new else none
    | _ => none

theorem reportsOn_append (id : Nat) (callbacks callbacks' : List Callback) :
    reportsOn id (callbacks ++ callbacks') = reportsOn id callbacks ++ reportsOn id callbacks' :=
  List.filterMap_append ..

/-- A report is one of its own handle only. -/
theorem reportsOn_report (id id' : Nat) (new : Connectivity) (cause : Option BalancerError) :
    reportsOn id [.report id' new cause] = if id' = id then [new] else [] := by
  by_cases heq : id' = id <;> simp [reportsOn, heq]

/-- A callback reports one state of a handle at most. -/
theorem reportsOn_singleton (id : Nat) (callback : Callback) :
    reportsOn id [callback] = [] ∨ ∃ new, reportsOn id [callback] = [new] := by
  cases callback with
  | report id' new cause =>
    rw [reportsOn_report]
    split
    next => exact .inr ⟨new, rfl⟩
    next => exact .inl rfl
  | update | failResolution | close | exitIdle => exact .inl rfl

/-- One more report changes what the earlier ones left. -/
theorem recordedAfter_concat (reports : List Connectivity) (new : Connectivity) :
    recordedAfter (reports ++ [new]) = heard (recordedAfter reports) new :=
  List.foldl_concat ..

/-- Nothing is recorded of a handle from when it was shut down. -/
theorem recordedAfter_eq_none_iff {reports : List Connectivity} :
    recordedAfter reports = none ↔ .shutdown ∈ reports := by
  induction reports using List.reverseRecOn with
  | nil => exact iff_of_false nofun List.not_mem_nil
  | append_singleton reports new ih =>
    rw [recordedAfter_concat, List.mem_append, ← ih, List.mem_singleton]
    cases recordedAfter reports with
    | none => simp [heard]
    | some old =>
      simp only [heard, Option.bind_some, reduceCtorEq, false_or]
      split
      next hstays => rcases hstays.2 with rfl | rfl <;> simp
      next =>
        split
        next hnew => simp [hnew]
        next hnew => simp [Ne.symm hnew]

/-- Until then something is. -/
theorem isSome_recordedAfter_iff {reports : List Connectivity} :
    (recordedAfter reports).isSome ↔ .shutdown ∉ reports := by
  rw [← Option.ne_none_iff_isSome, ne_eq, recordedAfter_eq_none_iff]

/-- A handle that is idle is told to connect unless it was shut down before. -/
theorem timesRequested_concat (reports : List Connectivity) (new : Connectivity) :
    timesRequested (reports ++ [new]) =
      timesRequested reports + if new = .idle ∧ .shutdown ∉ reports then 1 else 0 := by
  rw [timesRequested, timesRequested, Nat.add_assoc]
  congr 1
  induction reports with
  | nil => cases new <;> rfl
  | cons report reports ih =>
    by_cases hreport : report = .shutdown
    · simp [hreport]
    · have hnotin : Connectivity.shutdown ∉ report :: reports ↔ .shutdown ∉ reports := by
        simp [Ne.symm hreport]
      simp only [List.cons_append, List.takeWhile_cons, hreport, ne_eq, not_false_eq_true,
        decide_true, if_true, List.count_cons, ih, hnotin]
      omega

/-! ## What a report changes -/

/-- A report changes the record of one handle. -/
theorem getElem?_states_report (b : Balancer) (id : Nat) (new : Connectivity)
    (cause : Option BalancerError) (id' : Nat) : (b.report id new cause).balancer.states[id']? =
      if id = id' then heard b.states[id]? new else b.states[id']? := by
  have hreported := b.reported_report id new cause
  generalize b.report id new cause = o at hreported ⊢
  cases hreported with
  | pass hnone =>
    split
    next heq => rw [← heq, hnone]; rfl
    next => rfl
  | skip hold hstays =>
    by_cases heq : id = id'
    · rw [if_pos heq, ← heq, hold, heard, Option.bind_some, if_pos hstays]
    · rw [if_neg heq]
  | @record old hold hcounts =>
    have hstates : (b.track id old new cause).repick.states = (b.track id old new cause).states :=
      states_eq_of_holdings (holdings_repick _)
    have htrack : (b.track id old new cause).states =
        if new = .shutdown then b.states.erase id else b.states.insert id new := rfl
    rw [hstates, htrack, hold, heard, Option.bind_some, if_neg hcounts]
    by_cases hnew : new = .shutdown
    · rw [if_pos hnew, if_pos hnew]
      simp [Std.ExtTreeMap.getElem?_erase]
    · rw [if_neg hnew, if_neg hnew]
      simp [Std.ExtTreeMap.getElem?_insert]

/-! ## What a callback changes -/

variable {b : Balancer} {log : List Action} {callback : Callback} {a : Address} {c : Connection}

/-- Where a handle comes from that is held after a callback, and what becomes of its record. -/
inductive Fate (b : Balancer) (callback : Callback) (a : Address) (c : Connection) : Prop
  /-- It was made, and told to connect. -/
  | made (hdialed : (c, a) ∈ dialed (b.handle callback).actions)
      (hstate : (b.handle callback).balancer.states[c.id]? = some .idle)
      (hrequested : (requested (b.handle callback).actions).count c.id = 1)
  /-- It was held before, and its record changes with what it reports. -/
  | kept (hheld : b.connections[a]? = some c)
      (hstate : (b.handle callback).balancer.states[c.id]? =
        (reportsOn c.id [callback]).foldl heard b.states[c.id]?)
      (hrequested : (requested (b.handle callback).actions).count c.id =
        if .idle ∈ reportsOn c.id [callback] ∧ b.states[c.id]?.isSome then 1 else 0)

/-- There is a reason to tell a handle to connect: the callback makes it, and it is held afterwards,
or it reports to be idle while something is recorded of it. -/
def Connects (b : Balancer) (callback : Callback) (id : Nat) : Prop :=
  (∃ a c, c.id = id ∧ (c, a) ∈ dialed (b.handle callback).actions ∧
    (b.handle callback).balancer.connections[a]? = some c) ∨
  ((∃ cause, callback = .report id .idle cause) ∧ b.states[id]?.isSome)

/-- The callback makes no handle and lets none go, so that it comes down to reports. -/
structure Tells (b : Balancer) (callback : Callback) : Prop where
  connections_eq : (b.handle callback).balancer.connections = b.connections
  dialed_eq : dialed (b.handle callback).actions = []
  getElem?_states (id : Nat) : (b.handle callback).balancer.states[id]? =
    (reportsOn id [callback]).foldl heard b.states[id]?
  count_requested (id : Nat) : (requested (b.handle callback).actions).count id =
    if .idle ∈ reportsOn id [callback] ∧ b.states[id]?.isSome then 1 else 0

/-- A handle is reported to be idle by a report of its own only. -/
theorem idle_mem_reportsOn_iff {id : Nat} :
    .idle ∈ reportsOn id [callback] ↔ ∃ cause, callback = .report id .idle cause := by
  cases callback with
  | report id' new cause =>
    rw [reportsOn_report]
    by_cases heq : id' = id
    · simp [heq, eq_comm]
    · simp [heq]
  | update | failResolution | close | exitIdle => simp [reportsOn]

/-- A report changes the record of its handle as `heard` says, and has it connect when it is idle.
-/
theorem tells_report (b : Balancer) (id : Nat) (new : Connectivity) (cause : Option BalancerError) :
    b.Tells (.report id new cause) where
  connections_eq := connections_report b id new cause
  dialed_eq := b.dialed_report id new cause
  getElem?_states id' := by
    rw [handle, getElem?_states_report, reportsOn_report]
    by_cases heq : id = id' <;> simp [heq]
  count_requested id' := by
    have hiff : (.idle ∈ reportsOn id' [.report id new cause] ∧ b.states[id']?.isSome) ↔
        id = id' ∧ new = .idle ∧ b.states[id]?.isSome := by
      rw [idle_mem_reportsOn_iff]
      constructor
      · rintro ⟨⟨_, heq⟩, hsome⟩
        cases heq
        exact ⟨rfl, rfl, hsome⟩
      · rintro ⟨rfl, rfl, hsome⟩
        exact ⟨⟨_, rfl⟩, hsome⟩
    rw [handle, requested_report]
    simp only [hiff]
    split
    next h =>
      by_cases heq : id = id'
      · rw [if_pos ⟨heq, h⟩, heq, List.count_singleton_self]
      · rw [if_neg fun h' => heq h'.1]
        exact List.count_eq_zero.mpr fun hmem => heq (List.mem_singleton.mp hmem).symm
    next h => rw [if_neg fun h' => h h'.2, List.count_nil]

/-- A callback that reports nothing and leaves connections and records alone tells nothing. -/
theorem tells_of_holdings (hnone : ∀ id, reportsOn id [callback] = [])
    (hholdings : (b.handle callback).balancer.connections = b.connections ∧
      (b.handle callback).balancer.states = b.states)
    (hquiet : Quiet (b.handle callback).actions) : b.Tells callback where
  connections_eq := hholdings.1
  dialed_eq := hquiet.1
  getElem?_states id := by rw [hnone, hholdings.2]; rfl
  count_requested id := by simp [hnone, hquiet.2]

/-- Only updates make and let go of handles, where there is a ring. -/
theorem SoundAfter.tells_or_turns (hb : b.SoundAfter log) (hconfigured : b.Configured)
    (hhonest : Honest (log ++ (b.handle callback).actions)) :
    b.Tells callback ∨ ∃ dial addresses policy requests vain,
    callback = .update dial addresses policy ∧
      b.Turnover addresses policy requests vain (b.handle callback) := by
  cases callback with
  | report id new cause => exact .inl (b.tells_report id new cause)
  | failResolution e =>
    have hholdings := b.holdings_failResolution e
    exact .inl (tells_of_holdings (fun _ => rfl)
      ⟨connections_eq_of_holdings hholdings, states_eq_of_holdings hholdings⟩
      (b.quiet_failResolution e))
  | close | exitIdle => exact .inl (tells_of_holdings (fun _ => rfl) ⟨rfl, rfl⟩ ⟨rfl, rfl⟩)
  | update dial addresses policy =>
    by_cases hring : b.ring.isSome ∨ policy.isSome
    · have hends := hb.ends_update hconfigured hring hhonest
      refine .inr ⟨dial, addresses, policy, ?_⟩
      cases hends with
      | complete _ hturnover => exact ⟨_, _, rfl, hturnover⟩
      | conflict _ hturnover => exact ⟨_, _, rfl, hturnover⟩
    · -- without a ring the update ends at once
      obtain ⟨hnone, hpolicy⟩ := not_or.mp hring
      rw [Option.not_isSome_iff_eq_none] at hnone hpolicy
      subst hpolicy
      have hupdate : b.update dial addresses none =
          { balancer := ({ b with resolverError := none } : Balancer).fail
            actions := [({ b with resolverError := none } : Balancer).fail.publication]
            error := some .noRing } := by
        simp [Balancer.update, Balancer.adopt, hnone]
      refine .inl (tells_of_holdings (fun _ => rfl) ?_ ?_)
      · rw [handle, hupdate]
        exact ⟨rfl, rfl⟩
      · rw [handle, hupdate]
        exact ⟨rfl, rfl⟩

/-- A handle that was granted to an update is made in it. -/
theorem SoundAfter.mem_dialed (hb : b.SoundAfter log)
    (hhonest : Honest (log ++ (b.handle callback).actions))
    {addresses : List Address} {policy : Option Policy}
    {requests : List (Address × Option Connection)}
    {vain : List Connection} (h : b.Turnover addresses policy requests vain (b.handle callback))
    (hc : (a, some c) ∈ requests) : (c, a) ∈ dialed (b.handle callback).actions := by
  have hafter := hb.steps (b.steps_handle callback) hhonest
  have hmade : c ∈ (dialed (b.handle callback).actions).map (·.1) :=
    h.dialed_eq ▸ List.mem_append_left _ (mem_handles.mpr ⟨a, hc⟩)
  obtain ⟨⟨c', a'⟩, hmem, rfl⟩ := List.mem_map.mp hmade
  have ha : c'.address = a := hafter.sound.bound a c' ((h.getElem?_connections a c').mpr (.inr hc))
  have ha' : c'.address = a' :=
    hhonest.address_eq (c', a') (dialed_append log _ ▸ List.mem_append_right _ hmem)
  rwa [← ha, ha']

/-- A handle that is held after a callback was made in it or held before. -/
theorem SoundAfter.fate_handle (hb : b.SoundAfter log) (hconfigured : b.Configured)
    (hhonest : Honest (log ++ (b.handle callback).actions))
    (hheld : (b.handle callback).balancer.connections[a]? = some c) : b.Fate callback a c := by
  rcases hb.tells_or_turns hconfigured hhonest with htells | ⟨_, _, _, _, _, rfl, hturnover⟩
  · exact .kept (htells.connections_eq ▸ hheld) (htells.getElem?_states c.id)
      (htells.count_requested c.id)
  · rcases (hturnover.getElem?_connections a c).mp hheld with ⟨hdesired, hold⟩ | hnew
    · obtain ⟨hstate, hnot⟩ := hturnover.states_kept a hdesired c hold
      exact .kept hold hstate (List.count_eq_zero.mpr hnot)
    · refine .made (hb.mem_dialed hhonest hturnover hnew) (hturnover.states_new a c hnew) ?_
      refine List.count_eq_one_of_mem hturnover.nodup_requested ?_
      rw [hturnover.requested_eq]
      exact List.mem_map_of_mem (mem_handles.mpr ⟨a, hnew⟩)

/-- In a callback a handle is told to connect once, if it is. -/
theorem SoundAfter.requested_handle (hb : b.SoundAfter log) (hconfigured : b.Configured)
    (hhonest : Honest (log ++ (b.handle callback).actions)) :
    (requested (b.handle callback).actions).Nodup ∧
      ∀ id, id ∈ requested (b.handle callback).actions ↔ b.Connects callback id := by
  rcases hb.tells_or_turns hconfigured hhonest with htells | ⟨_, _, _, _, _, rfl, hturnover⟩
  · refine ⟨List.nodup_iff_count_le_one.mpr fun id => ?_, fun id => ?_⟩
    · rw [htells.count_requested]
      split <;> decide
    · rw [← List.count_pos_iff, htells.count_requested, Connects, htells.dialed_eq,
        ← idle_mem_reportsOn_iff]
      split
      next h => exact iff_of_true Nat.one_pos (.inr h)
      next h =>
        refine iff_of_false (Nat.lt_irrefl 0) (not_or.mpr ⟨?_, h⟩)
        rintro ⟨_, _, _, hmade, _⟩
        cases hmade
  · refine ⟨hturnover.nodup_requested, fun id => ?_⟩
    constructor
    · intro hid
      rw [hturnover.requested_eq] at hid
      obtain ⟨c, hc, hid⟩ := List.mem_map.mp hid
      obtain ⟨a, hnew⟩ := mem_handles.mp hc
      exact .inl ⟨a, c, hid, hb.mem_dialed hhonest hturnover hnew,
        (hturnover.getElem?_connections a c).mpr (.inr hnew)⟩
    · intro hcase
      rcases hcase with ⟨a, c, rfl, hmade, hheld⟩ | ⟨⟨_, heq⟩, -⟩
      · rcases (hturnover.getElem?_connections a c).mp hheld with ⟨-, hold⟩ | hnew
        · -- what was held before is not made anew
          exact absurd (List.mem_map_of_mem hmade) ((hb.fresh hhonest).2 a c hold)
        · rw [hturnover.requested_eq]
          exact List.mem_map_of_mem (mem_handles.mpr ⟨a, hnew⟩)
      · cases heq

/-! ## While everything is failing -/

/-- Everything is failing, each handle that is tracked and all together. -/
structure Stuck (b : Balancer) : Prop where
  state_eq : b.state = .transientFailure
  eq_of_getElem?_states : ∀ (id : Nat) s, b.states[id]? = some s → s = .transientFailure

/-- No call is routed after what was published. -/
def FailsCalls (said : List (Connectivity × Picker)) : Prop :=
  ∀ state picker, (state, picker) ∈ said → state = .transientFailure ∧
    ∀ key chance m, ∃ e, (picker.pick key chance m).1 = .error e

/-- A report keeps the balancer sound. -/
theorem Sound.report (hb : b.Sound) (id : Nat) (new : Connectivity) (cause : Option BalancerError) :
    (b.report id new cause).balancer.Sound := by
  have hreported := b.reported_report id new cause
  generalize b.report id new cause = o at hreported ⊢
  cases hreported with
  | pass | skip => exact hb
  | record hold => exact (hb.track hold new cause).congr (holdings_repick _)

/-- Connections that are all failing are failing together. -/
theorem best_eq_transientFailure {states : List Connectivity}
    (h : ∀ s ∈ states, s = .transientFailure) :
    Connectivity.best states = .transientFailure := by
  have hnot (s : Connectivity) (hs : s ≠ .transientFailure) : s ∉ states :=
    fun hmem => hs (h s hmem)
  have hready := hnot .ready (by decide)
  have hconnecting := hnot .connecting (by decide)
  have hidle := hnot .idle (by decide)
  rw [Connectivity.best, if_neg hready, if_neg hconnecting, if_neg hidle]

/-- A report changes nothing of that, unless it is of a handle that gets ready. -/
theorem Stuck.report (h : b.Stuck) (hb : b.Sound) (id : Nat) {new : Connectivity}
    (hnew : new ≠ .ready) (cause : Option BalancerError) :
    (b.report id new cause).balancer.Stuck ∧
    FailsCalls (published (b.report id new cause).actions) := by
  have hafter := hb.report id new cause
  have hstates := b.getElem?_states_report id new cause
  have hquiet := published_reconnect id new
  have hreported := b.reported_report id new cause
  generalize b.report id new cause = o at hafter hstates hreported ⊢
  cases hreported with
  | pass => exact ⟨h, nofun⟩
  | skip =>
    refine ⟨h, fun state picker hsaid => ?_⟩
    rw [hquiet] at hsaid
    cases hsaid
  | @record old hold hcounts =>
    -- what is recorded of the others is that they fail, and of this one too if it is not shut down
    have hfailing (id' : Nat) (s : Connectivity)
        (hs : (b.track id old new cause).repick.states[id']? = some s) : s = .transientFailure := by
      rw [hstates id'] at hs
      split at hs
      next =>
        obtain rfl := h.eq_of_getElem?_states id old hold
        rw [hold, heard, Option.bind_some, if_neg hcounts] at hs
        cases new with
        | transientFailure => exact (Option.some.inj hs).symm
        | ready => exact absurd rfl hnew
        | shutdown => cases hs
        | idle | connecting => exact absurd ⟨rfl, by simp⟩ hcounts
      next => exact h.eq_of_getElem?_states id' s hs
    have hkept := (b.track id old new cause).kept_repick
    have hstate : (b.track id old new cause).state = .transientFailure := by
      have hbest := hafter.counts.aggregate_eq
      rw [hkept.tally_eq] at hbest
      refine hbest.trans (best_eq_transientFailure fun s hs => ?_)
      obtain ⟨id', hid'⟩ := TreeMap.mem_values.mp hs
      exact hfailing id' s hid'
    refine ⟨⟨hkept.state_eq.trans hstate, hfailing⟩, fun state picker hsaid => ?_⟩
    rw [published_append, hquiet, List.nil_append] at hsaid
    cases List.mem_singleton.mp hsaid
    refine ⟨hkept.state_eq.trans hstate, fun key chance m => ?_⟩
    rw [repick_eq_fail hstate]
    exact ⟨_, rfl⟩

/-- A balancer that is stuck stays so under any reports but one to be ready, by induction over
them. -/
theorem stuck_run {p : Partitioner} {callbacks : List Callback}
    (h : (run p callbacks).balancer.Stuck)
    (hb : (run p callbacks).balancer.Sound) {later : List Callback}
    (hlater : ∀ callback ∈ later, ∃ id new cause, callback = .report id new cause ∧ new ≠ .ready) :
    (run p (callbacks ++ later)).balancer.Sound ∧ (run p (callbacks ++ later)).balancer.Stuck ∧
      ∃ said, published (run p (callbacks ++ later)).actions =
        published (run p callbacks).actions ++ said ∧
        FailsCalls said := by
  induction later using List.reverseRecOn with
  | nil =>
    rw [List.append_nil]
    exact ⟨hb, h, [], (List.append_nil _).symm, nofun⟩
  | append_singleton later callback ih =>
    obtain ⟨hsound, hstuck, said, hsaid, hfails⟩ :=
      ih fun callback hcallback => hlater callback (List.mem_append_left _ hcallback)
    obtain ⟨id, new, cause, rfl, hnew⟩ :=
      hlater callback (List.mem_append_right _ (List.mem_cons_self ..))
    obtain ⟨hstuck', hfails'⟩ := hstuck.report hsound id hnew cause
    rw [← List.append_assoc, run_concat]
    refine ⟨hsound.report id new cause, hstuck',
      said ++ published ((run p (callbacks ++ later)).balancer.report id new cause).actions, ?_,
      fun state picker hmem => ?_⟩
    · rw [Outcome.actions_after, published_append, hsaid, List.append_assoc]
      rfl
    · rcases List.mem_append.mp hmem with hmem | hmem
      · exact hfails state picker hmem
      · exact hfails' state picker hmem

/-! ## Histories -/

/-- Only handles that were made are told to connect. -/
theorem made_of_requested (p : Partitioner) (callbacks : List Callback)
    (hhonest : Honest (run p callbacks).actions) :
    ∀ id ∈ requested (run p callbacks).actions,
      id ∈ (dialed (run p callbacks).actions).map (·.1.id) := by
  induction callbacks using List.reverseRecOn with
  | nil => exact fun id hid => absurd hid List.not_mem_nil
  | append_singleton callbacks callback ih =>
    rw [run_concat] at hhonest ⊢
    have hbefore := hhonest.of_prefix (List.prefix_append ..)
    have hb := soundAfter_run p callbacks hbefore
    intro id hid
    rw [Outcome.actions_after, requested_append] at hid
    rw [Outcome.actions_after, dialed_append, List.map_append, List.mem_append]
    rcases List.mem_append.mp hid with hid | hid
    · exact .inl (ih hbefore id hid)
    · rcases ((hb.requested_handle (configured_run p callbacks) hhonest).2 id).mp hid with
        ⟨a, c, rfl, hmade, -⟩ | ⟨-, hsome⟩
      · exact .inr (List.mem_map_of_mem hmade)
      · obtain ⟨s, hs⟩ := Option.isSome_iff_exists.mp hsome
        obtain ⟨-, a, c, hc, rfl⟩ := hb.sound.tracked id s hs
        exact .inl (List.mem_map_of_mem (hb.made a c hc))

/-- A handle that is held was made in a callback, and what is recorded of it is what it reported
from then on. -/
theorem exists_made_run (p : Partitioner) (callbacks : List Callback)
    (hhonest : Honest (run p callbacks).actions) {a : Address} {c : Connection}
    (hheld : (run p callbacks).balancer.connections[a]? = some c) :
    ∃ before callback later, callbacks = before ++ callback :: later ∧
      (c, a) ∈ dialed ((run p before).balancer.handle callback).actions ∧
      (run p callbacks).balancer.states[c.id]? = recordedAfter (reportsOn c.id later) ∧
      (requested (run p callbacks).actions).count c.id = timesRequested (reportsOn c.id later) := by
  induction callbacks using List.reverseRecOn with
  | nil => simp [Balancer.run] at hheld
  | append_singleton callbacks callback ih =>
    rw [run_concat] at hhonest hheld ⊢
    have hbefore := hhonest.of_prefix (List.prefix_append ..)
    have hb := soundAfter_run p callbacks hbefore
    cases hb.fate_handle (configured_run p callbacks) hhonest hheld with
    | made hdialed hstate hrequested =>
      refine ⟨callbacks, callback, [], rfl, hdialed, hstate, ?_⟩
      -- before it was made nothing was told to connect that has its number
      have hnone : c.id ∉ requested (run p callbacks).actions := by
        intro hid
        have hnodup := hhonest.nodup
        rw [Outcome.actions_after, dialed_append, List.map_append, List.nodup_append] at hnodup
        exact hnodup.2.2 _ (made_of_requested p callbacks hbefore _ hid) _
          (List.mem_map_of_mem hdialed) rfl
      rw [Outcome.actions_after, requested_append, List.count_append, hrequested,
        List.count_eq_zero.mpr hnone]
      rfl
    | kept hold hstate hrequested =>
      obtain ⟨before, made, later, rfl, hdialed, hstates, hcount⟩ := ih hbefore hold
      refine ⟨before, made, later ++ [callback], by simp, hdialed, ?_, ?_⟩
      · rw [Outcome.balancer_after, hstate, hstates, reportsOn_append, recordedAfter, recordedAfter,
          List.foldl_append]
      · rw [Outcome.actions_after, requested_append, List.count_append, hcount, hrequested, hstates,
          reportsOn_append]
        rcases reportsOn_singleton c.id callback with hnone | ⟨new, hnew⟩
        · simp [hnone]
        · rw [hnew, timesRequested_concat]
          simp only [List.mem_singleton, isSome_recordedAfter_iff, @eq_comm _ Connectivity.idle]

/-- What is recorded of the handles that are held, how often each of them was told to connect, and
that in each callback only those are told which have a reason; and what a history cannot change by
reports once everything is failing, if no handle gets ready. -/
theorem run_records_reports (p : Partitioner) (callbacks : List Callback)
    (hhonest : Honest (run p callbacks).actions) :
    let o := run p callbacks
    (∀ (a : Address) c, o.balancer.connections[a]? = some c → ∃ before callback later,
      callbacks = before ++ callback :: later ∧
      (c, a) ∈ dialed ((run p before).balancer.handle callback).actions ∧
      o.balancer.states[c.id]? = recordedAfter (reportsOn c.id later) ∧
      (requested o.actions).count c.id = timesRequested (reportsOn c.id later)) ∧
    (∀ before callback later, callbacks = before ++ callback :: later →
      (requested ((run p before).balancer.handle callback).actions).Nodup ∧
      ∀ id, id ∈ requested ((run p before).balancer.handle callback).actions ↔
        (run p before).balancer.Connects callback id) ∧
    (o.balancer.Stuck → ∀ later : List Callback,
      (∀ callback ∈ later, ∃ id new cause, callback = .report id new cause ∧ new ≠ .ready) →
      (run p (callbacks ++ later)).balancer.Stuck ∧
      ∃ said, published (run p (callbacks ++ later)).actions = published o.actions ++ said ∧
        FailsCalls said) := by
  intro o
  refine ⟨fun a c hheld => exists_made_run p callbacks hhonest hheld,
    fun before callback later hsplit => ?_,
    fun hstuck later hlater => ?_⟩
  · have hle := prefix_run p (before ++ [callback]) later
    rw [List.append_assoc, List.singleton_append, ← hsplit] at hle
    have hcallback := hhonest.of_prefix hle
    rw [run_concat] at hcallback
    have hb := soundAfter_run p before (hcallback.of_prefix (List.prefix_append ..))
    exact hb.requested_handle (configured_run p before) hcallback
  · exact (stuck_run hstuck (soundAfter_run p callbacks hhonest).sound hlater).2

/-- Of two handles one is failing and keeps trying, and the other one was ready and is shut down. An
update in between keeps both. However often the first one tries again, everything stays failing. -/
theorem run_flapping_records_reports :
    let node (addr : String) (id : String) : Address := ⟨addr, "", some id⟩
    let callbacks : List Callback :=
      [.update (fun made a => some ⟨made, a⟩) [node "h:1" "m", node "h:2" "n"] (some ⟨2, 1⟩),
        .report 0 .transientFailure none, .report 1 .ready none, .report 0 .idle none,
        .update (fun _ _ => none) [node "h:1" "m", node "h:2" "n", node "h:3" "k"] none,
        .report 0 .connecting none, .report 1 .shutdown none, .report 1 .idle none]
    let o := run Ring.crowded callbacks
    requested o.actions = [0, 1, 0] ∧ o.balancer.states[0]? = some .transientFailure ∧
      (∃ before callback later, callbacks = before ++ callback :: later ∧
        o.balancer.states[1]? = recordedAfter (reportsOn 1 later) ∧
        (requested o.actions).count 1 = timesRequested (reportsOn 1 later)) ∧
      ∀ n, (run Ring.crowded
        (callbacks ++ List.replicate n (.report 0 .idle none))).balancer.state =
        .transientFailure := by
  intro node callbacks o
  obtain ⟨hheld, -, hstuck⟩ := run_records_reports Ring.crowded callbacks ⟨by decide, by decide⟩
  obtain ⟨before, callback, later, hsplit, -, hstates, hcount⟩ :=
    hheld (node "h:2" "n") ⟨1, node "h:2" "n"⟩ (by decide)
  refine ⟨by decide, by decide, ⟨before, callback, later, hsplit, hstates, hcount⟩, fun n => ?_⟩
  have hfailing : o.balancer.states.values = [.transientFailure] := by decide
  have ho : o.balancer.Stuck := by
    refine ⟨by decide, fun id s hs => ?_⟩
    have hmem := TreeMap.mem_values.mpr ⟨id, hs⟩
    exact List.mem_singleton.mp (hfailing ▸ hmem)
  refine (hstuck ho _ fun callback hcallback => ?_).1.state_eq
  obtain rfl := List.eq_of_mem_replicate hcallback
  exact ⟨0, .idle, none, rfl, nofun⟩

end RingRouting.Balancer
