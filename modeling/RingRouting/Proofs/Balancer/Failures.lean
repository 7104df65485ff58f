import RingRouting.Proofs.Balancer.Aggregate

/-!
# What calls are told while everything is failing

A balancer notes the last connection error and the last error of resolution, and the picker that it
makes while everything is failing tells calls of both. A picker is made by an update, by a report
that counts, and by a failed resolution where no connection is held. Where one is held, a failed
resolution is noted and what was published before is published again, so that calls are not told of
it. Main statements: `run_failure_told`, and `run_failure_untold`, that they are not.
-/

namespace RingRouting

/-- What a call is told of a connection error and an error of resolution. -/
def BalancerError.told : Option BalancerError → Option BalancerError → BalancerError
  | none, none => .noConnection
  | some e, none => .unavailable e.message
  | none, some e => .unavailable e.message
  | some e, some e' => .unavailable (e.message ++ "; " ++ e'.message)

/-- The two errors are joined as `told` says. -/
theorem BalancerError.join_eq_told (connection resolver : Option BalancerError) :
    BalancerError.join connection resolver = .told connection resolver := by
  cases connection <;> cases resolver <;> rfl

namespace Balancer

variable {p : Partitioner} {b b' : Balancer} {dial : Nat → Address → Option Connection}
variable {callback : Callback} {o : Outcome}

/-! ## The latest callback of a kind -/

/-- In a history, `callback` is the latest one that has the property together with the balancer
before it. -/
structure Latest (p : Partitioner) (P : Balancer → Callback → Prop)
    (callbacks before : List Callback) (callback : Callback) (later : List Callback) : Prop where
  split : callbacks = before ++ callback :: later
  holds : P (run p before).balancer callback
  not_later : ∀ front next back, later = front ++ next :: back →
    ¬P (run p (before ++ callback :: front)).balancer next

/-- The latest callback with `P` is the new one, or the one before it if the new one lacks `P`. -/
theorem latest_concat_iff {P : Balancer → Callback → Prop} {callbacks before later : List Callback}
    {last : Callback} : Latest p P (callbacks ++ [last]) before callback later ↔
      (P (run p callbacks).balancer last ∧ before = callbacks ∧ callback = last ∧ later = []) ∨
        (¬P (run p callbacks).balancer last ∧
          ∃ between, later = between ++ [last] ∧ Latest p P callbacks before callback between) := by
  constructor
  · intro h
    rcases List.eq_nil_or_concat later with rfl | ⟨between, next, rfl⟩
    · obtain ⟨rfl, hlast⟩ := List.append_inj' h.split rfl
      obtain rfl := List.singleton_inj.mp hlast
      exact .inl ⟨h.holds, rfl, rfl, rfl⟩
    · rw [List.concat_eq_append] at h
      have hsplit := h.split
      rw [← List.cons_append, ← List.append_assoc] at hsplit
      obtain ⟨hcallbacks, hlast⟩ := List.append_inj' hsplit rfl
      obtain rfl := List.singleton_inj.mp hlast
      refine .inr ⟨hcallbacks ▸ h.not_later between last [] rfl, between, List.concat_eq_append,
        hcallbacks, h.holds, fun front next back heq => h.not_later front next (back ++ [last]) ?_⟩
      rw [heq, List.append_assoc, List.cons_append]
  · intro hcase
    rcases hcase with ⟨hlast, rfl, rfl, rfl⟩ | ⟨hlast, between, rfl, h⟩
    · exact ⟨rfl, hlast, by simp⟩
    · refine ⟨by rw [h.split]; simp, h.holds, fun front next back heq => ?_⟩
      rcases List.eq_nil_or_concat back with rfl | ⟨back, final, rfl⟩
      · obtain ⟨rfl, hnext⟩ := List.append_inj' heq rfl
        obtain rfl := List.singleton_inj.mp hnext
        exact h.split ▸ hlast
      · rw [List.concat_eq_append, ← List.cons_append, ← List.append_assoc] at heq
        obtain ⟨hbetween, -⟩ := List.append_inj' heq rfl
        exact h.not_later front next back hbetween

/-- A value that some callbacks set, and that the others leave alone, was set by the latest of
those. -/
theorem eq_some_iff_of_latest {α : Type} {P : Balancer → Callback → Prop}
    {value : Balancer → Option α}
    {set : Balancer → Callback → Option α} (hnew : value { partitioner := p } = none)
    (hset : ∀ {b callback}, b.Configured → P b callback →
      value (b.handle callback).balancer = set b callback)
    (hkeep : ∀ {b callback}, b.Configured → ¬P b callback →
      value (b.handle callback).balancer = value b)
    (callbacks : List Callback) (x : α) : value (run p callbacks).balancer = some x ↔
      ∃ before callback later, Latest p P callbacks before callback later ∧
        set (run p before).balancer callback = some x := by
  induction callbacks using List.reverseRecOn with
  | nil =>
    refine iff_of_false ?_ fun ⟨before, callback, later, h, _⟩ => by simpa using h.split
    rw [show value (run p []).balancer = none from hnew]
    exact nofun
  | append_singleton callbacks last ih =>
    simp only [latest_concat_iff]
    rw [run_concat, Outcome.balancer_after]
    by_cases hlast : P (run p callbacks).balancer last
    · rw [hset (configured_run p callbacks) hlast]
      constructor
      · exact fun hx => ⟨callbacks, last, [], .inl ⟨hlast, rfl, rfl, rfl⟩, hx⟩
      · rintro ⟨_, _, _, ⟨-, rfl, rfl, -⟩ | ⟨hnot, -⟩, hx⟩
        · exact hx
        · exact absurd hlast hnot
    · rw [hkeep (configured_run p callbacks) hlast, ih]
      constructor
      · rintro ⟨before, callback, later, h, hx⟩
        exact ⟨before, callback, later ++ [last], .inr ⟨hlast, later, rfl, h⟩, hx⟩
      · rintro ⟨before, callback, later, ⟨h, -⟩ | ⟨-, between, -, h⟩, hx⟩
        · exact absurd h hlast
        · exact ⟨before, callback, between, h, hx⟩

/-! ## The errors that are noted -/

/-- The callback is a report that counts, of a failure or with which all connections together are
ready. -/
def MarksConnection (b : Balancer) (callback : Callback) : Prop :=
  ∃ id new cause, callback = .report id new cause ∧ b.Records id new ∧
    (new = .transientFailure ∨ (b.handle callback).balancer.state = .ready)

/-- The connection error after such a callback. There is none once all connections together are
ready. -/
def connectionFault (b : Balancer) (callback : Callback) : Option BalancerError :=
  match callback with
  | .report id new cause =>
    if new = .transientFailure ∧ (b.handle callback).balancer.state ≠ .ready then
      some (cause.getD (.connection s!"{Connection.handle id} failed"))
    else none
  | .update .. | .failResolution _ | .close | .exitIdle => none

/-- The callback is about resolution, whether it came or failed. -/
def Resolves (_ : Balancer) : Callback → Prop
  | .update .. | .failResolution _ => True
  | .report .. | .close | .exitIdle => False

/-- The error of resolution after such a callback. A resolution without addresses is one that
failed. -/
def resolverFault (b : Balancer) : Callback → Option BalancerError
  | .failResolution e => some e
  | .update dial addresses policy =>
    if (b.update dial addresses policy).error = some .badResolverState then
      some (.resolver "produced zero addresses")
    else none
  | .report .. | .close | .exitIdle => none

/-- The last connection error of a history and the last error of resolution. -/
structure Noted (p : Partitioner) (callbacks : List Callback)
    (connection resolver : Option BalancerError) : Prop where
  connection_iff : ∀ e, connection = some e ↔ ∃ before callback later,
    Latest p MarksConnection callbacks before callback later ∧
      connectionFault (run p before).balancer callback = some e
  resolver_iff : ∀ e, resolver = some e ↔ ∃ before callback later,
    Latest p Resolves callbacks before callback later ∧
    resolverFault (run p before).balancer callback = some e

/-- A history has one last error of each kind. -/
theorem Noted.eq {callbacks : List Callback}
    {connection resolver connection' resolver' : Option BalancerError}
    (h : Noted p callbacks connection resolver) (h' : Noted p callbacks connection' resolver') :
    connection = connection' ∧ resolver = resolver' :=
  ⟨Option.ext fun e => (h.connection_iff e).trans (h'.connection_iff e).symm,
    Option.ext fun e => (h.resolver_iff e).trans (h'.resolver_iff e).symm⟩

/-- The errors that a balancer has noted. -/
def noted (b : Balancer) : Option BalancerError × Option BalancerError :=
  (b.connectionError, b.resolverError)

theorem noted_repick (b : Balancer) : b.repick.noted = b.noted := by
  unfold repick
  split
  next => split <;> rfl
  next => rfl

/-- Requests note no error, also where the transport makes no handle. -/
theorem Dials.noted_eq {desired : Std.ExtTreeSet Address}
    {requests : List (Address × Option Connection)}
    (h : Dials (b.retained desired) requests b') : b'.noted = b.noted := by
  obtain ⟨_, _, _, _, rfl⟩ := h.exists_retained_eq
  rfl

/-- An update notes an error of resolution exactly when it came with no addresses. -/
theorem Reconciled.noted_eq {desired : Std.ExtTreeSet Address} (h : Reconciled dial b desired o) :
    o.balancer.noted = (b.connectionError,
      if o.error = some .badResolverState then some (.resolver "produced zero addresses")
      else b.resolverError) := by
  cases h with
  | @reject b' _ _ _ _ _ _ _ hdials =>
    have hnoted : b'.noted = b.noted := hdials.noted_eq
    exact hnoted
  | @settle b' settled hdials hsettled =>
    have hnoted : settled.noted = b.noted := by
      rw [hsettled, ← hdials.noted_eq]
      split <;> rfl
    obtain ⟨hconnection, hresolver⟩ := Prod.mk.inj hnoted
    rw [Outcome.balancer_after, Outcome.error_after, conclude]
    split
    next =>
      rw [← hconnection]
      unfold failResolution
      dsimp only
      split <;> rfl
    next => exact settled.noted_repick.trans hnoted

/-- A new policy keeps the connection error and finds the resolver error cleared. -/
theorem noted_adopt {policy : Option Policy}
    (h : ({ b with resolverError := none } : Balancer).adopt policy = .ok b') :
    b'.connectionError = b.connectionError ∧ b'.resolverError = none := by
  obtain ⟨_, _, rfl⟩ := exists_adopt_eq h
  exact ⟨rfl, rfl⟩

/-- After an update the error of resolution is the fault of that update. -/
theorem Configured.noted_update (hb : b.Configured) (dial : Nat → Address → Option Connection)
    (addresses : List Address) (policy : Option Policy) :
    (b.update dial addresses policy).balancer.noted =
      (b.connectionError, resolverFault b (.update dial addresses policy)) := by
  have hfault : resolverFault b (.update dial addresses policy) =
      if (b.update dial addresses policy).error = some .badResolverState then
        some (.resolver "produced zero addresses")
      else none := rfl
  have hupdated := hb.updated_update dial addresses policy
  rw [hfault]
  generalize b.update dial addresses policy = o at hupdated ⊢
  cases hupdated with
  | noRing hadopt =>
    obtain ⟨hconnection, hresolver⟩ := noted_adopt hadopt
    exact Prod.ext hconnection hresolver
  | reconcile hadopt _ h =>
    obtain ⟨hconnection, hresolver⟩ := noted_adopt hadopt
    rw [h.noted_eq, hconnection, hresolver]

/-- A failed resolution is noted in place of the one before, next to the connection error. -/
theorem noted_failResolution (b : Balancer) (e : BalancerError) :
    (b.failResolution e).balancer.noted = (b.connectionError, some e) := by
  unfold failResolution
  dsimp only
  split <;> rfl

/-- A report that does not count changes nothing. -/
theorem report_of_not_records {id : Nat} {new : Connectivity} (h : ¬b.Records id new)
    (cause : Option BalancerError) : (b.report id new cause).balancer = b := by
  have hreported := b.reported_report id new cause
  generalize b.report id new cause = o at hreported ⊢
  cases hreported with
  | pass | skip => rfl
  | @record old hold hcounts => exact absurd ⟨old, hold, hcounts⟩ h

/-- A report that counts clears the connection error once all connections together are ready, and
notes its own otherwise if it is of a failure. -/
theorem Records.noted_report {id : Nat} {new : Connectivity} (h : b.Records id new)
    (cause : Option BalancerError) :
    (b.report id new cause).balancer.noted =
      (if (b.report id new cause).balancer.state = .ready then none
        else if new = .transientFailure then
          some (cause.getD (.connection s!"{Connection.handle id} failed"))
        else b.connectionError, b.resolverError) := by
  obtain ⟨old, hold, hcounts⟩ := h
  have hreport : (b.report id new cause).balancer = (b.track id old new cause).repick := by
    simp only [Balancer.report, hold, if_neg hcounts]
  rw [hreport, noted_repick, (kept_repick _).state_eq]
  rfl

/-! ## What callbacks note -/

/-- After a callback that marks it the connection error is the fault of that callback. -/
theorem MarksConnection.connectionError_eq (h : b.MarksConnection callback) :
    (b.handle callback).balancer.connectionError = b.connectionFault callback := by
  obtain ⟨id, new, cause, rfl, hrecords, hmarks⟩ := h
  have hnoted := (Prod.mk.inj (hrecords.noted_report cause)).1
  rw [handle, hnoted, connectionFault, handle]
  by_cases hready : (b.report id new cause).balancer.state = .ready
  · rw [if_pos hready, if_neg fun h => h.2 hready]
  · have hnew : new = .transientFailure := hmarks.resolve_right hready
    rw [if_neg hready, if_pos hnew, if_pos ⟨hnew, hready⟩]

/-- Every other callback leaves the connection error as it was. -/
theorem Configured.connectionError_of_not_marks (hb : b.Configured)
    (h : ¬b.MarksConnection callback) :
    (b.handle callback).balancer.connectionError = b.connectionError := by
  cases callback with
  | update dial addresses policy => exact (Prod.mk.inj (hb.noted_update dial addresses policy)).1
  | failResolution e => exact (Prod.mk.inj (b.noted_failResolution e)).1
  | close | exitIdle => rfl
  | report id new cause =>
    by_cases hrecords : b.Records id new
    · obtain ⟨hnew, hready⟩ := not_or.mp fun hmarks => h ⟨id, new, cause, rfl, hrecords, hmarks⟩
      rw [handle] at hready
      rw [handle, (Prod.mk.inj (hrecords.noted_report cause)).1, if_neg hready, if_neg hnew]
    · rw [handle, report_of_not_records hrecords]

/-- After a resolution the error is the fault of that resolution. -/
theorem Configured.resolverError_of_resolves (hb : b.Configured) (h : b.Resolves callback) :
    (b.handle callback).balancer.resolverError = b.resolverFault callback := by
  cases callback with
  | update dial addresses policy => exact (Prod.mk.inj (hb.noted_update dial addresses policy)).2
  | failResolution e => exact (Prod.mk.inj (b.noted_failResolution e)).2
  | report | close | exitIdle => exact h.elim

/-- Every other callback leaves the resolver error as it was. -/
theorem resolverError_of_not_resolves (h : ¬b.Resolves callback) :
    (b.handle callback).balancer.resolverError = b.resolverError := by
  cases callback with
  | update | failResolution => exact absurd trivial h
  | close | exitIdle => rfl
  | report id new cause =>
    by_cases hrecords : b.Records id new
    · exact (Prod.mk.inj (hrecords.noted_report cause)).2
    · rw [handle, report_of_not_records hrecords]

/-- What a balancer has noted is what was last. -/
theorem noted_run (p : Partitioner) (callbacks : List Callback) :
    Noted p callbacks (run p callbacks).balancer.connectionError
      (run p callbacks).balancer.resolverError where
  connection_iff := eq_some_iff_of_latest rfl (fun _ h => h.connectionError_eq)
    (fun hb h => hb.connectionError_of_not_marks h) callbacks
  resolver_iff := eq_some_iff_of_latest rfl (fun hb h => hb.resolverError_of_resolves h)
    (fun _ h => resolverError_of_not_resolves h) callbacks

/-! ## Pickers -/

/-- The callback makes the picker anew: it is an update, a report that counts, or a failed
resolution where no connection is held. -/
def Remakes (b : Balancer) : Callback → Prop
  | .update .. => True
  | .failResolution _ => b.connections = ∅
  | .report id new _ => b.Records id new
  | .close | .exitIdle => False

/-- While everything is failing calls are told of the errors that are noted, unless the ring did not
take in a handle. -/
structure Explains (o : Outcome) : Prop where
  of_ring_error : ∀ e, o.error = some (.ring e) → o.balancer.picker = .failing (.ring e)
  of_accepted : (∀ e, o.error ≠ some (.ring e)) → o.balancer.state = .transientFailure →
    o.balancer.picker = .failing (.told o.balancer.connectionError o.balancer.resolverError)

/-- A failing picker tells calls of both errors. -/
theorem picker_fail (b : Balancer) :
    b.fail.picker = .failing (.told b.connectionError b.resolverError) := by
  rw [← BalancerError.join_eq_told]
  rfl

/-- A picker that is made anew tells of the errors that are noted. -/
theorem explains_repick (b : Balancer) (actions : List Action) :
    Explains { balancer := b.repick, actions } where
  of_ring_error := nofun
  of_accepted _ hstate := by
    have hfailing : b.state = .transientFailure := (kept_repick b).state_eq.symm.trans hstate
    rw [repick_eq_fail hfailing]
    exact b.picker_fail

/-- Where no connection is held a failed resolution is told at once. -/
theorem explains_failResolution (hempty : b.connections.isEmpty) (e : BalancerError) :
    Explains (b.failResolution e) := by
  unfold failResolution
  simp only [hempty, if_true]
  exact ⟨nofun, fun _ _ => picker_fail _⟩

/-- However an update ends, calls are told of the errors noted by then. -/
theorem Reconciled.explains {desired : Std.ExtTreeSet Address} (h : Reconciled dial b desired o) :
    Explains o := by
  have hsummed := h.summed
  cases h with
  | @reject _ _ _ _ _ _ e =>
    refine ⟨fun e he => ?_, fun haccepted => absurd rfl (haccepted e)⟩
    cases he
    rfl
  | @settle b' settled hdials hsettled =>
    cases hempty : desired.isEmpty with
    | false =>
      have hexplains := settled.explains_repick []
      exact ⟨nofun, hexplains.of_accepted⟩
    | true =>
      -- nothing is desired, so that no connection is left
      rw [hempty] at hsummed
      rcases hsummed nofun with ⟨-, hnone⟩ | ⟨herror, -⟩ | ⟨herror, -⟩
      · rw [Outcome.balancer_after, connections_eq_of_holdings (settled.holdings_conclude true)]
          at hnone
        have hexplains := explains_failResolution (Std.ExtTreeMap.isEmpty_iff.mpr hnone)
          (.resolver "produced zero addresses")
        have hnot (e : RingError) :
            (settled.failResolution (.resolver "produced zero addresses")).error ≠
            some (.ring e) := nofun
        exact ⟨nofun, fun _ => hexplains.of_accepted hnot⟩
      · cases herror
      · cases herror

/-- Calls are told of the errors noted after every callback that makes the picker anew. -/
theorem Configured.explains_handle (hb : b.Configured) (h : b.Remakes callback) :
    Explains (b.handle callback) := by
  cases callback with
  | update dial addresses policy =>
    have hupdated := hb.updated_update dial addresses policy
    rw [handle]
    generalize b.update dial addresses policy = o at hupdated ⊢
    cases hupdated with
    | noRing =>
      refine ⟨fun e he => ?_, fun _ _ => picker_fail _⟩
      cases he
    | reconcile _ _ hreconciled => exact hreconciled.explains
  | failResolution e => exact explains_failResolution (Std.ExtTreeMap.isEmpty_iff.mpr h) e
  | report id new cause =>
    obtain ⟨old, hold, hcounts⟩ := h
    simp only [handle, Balancer.report, hold, if_neg hcounts]
    exact explains_repick ..
  | close | exitIdle => exact h.elim

/-- A picker that is made anew is published. -/
theorem Configured.announces_of_remakes (hb : b.Configured) (h : b.Remakes callback) :
    Announces (b.handle callback) := by
  cases callback with
  | update dial addresses policy => exact hb.announces_update dial addresses policy
  | failResolution e => exact announces_failResolution (Std.ExtTreeMap.isEmpty_iff.mpr h) e
  | report id new cause => exact hb.announces_of_accepts h
  | close | exitIdle => exact h.elim

/-- Otherwise the picker goes on, and nothing is noted but that resolution failed. -/
theorem kept_of_not_remakes (h : ¬b.Remakes callback) :
    (b.handle callback).balancer.state = b.state ∧ (b.handle callback).balancer.picker = b.picker ∧
      (b.handle callback).balancer.connectionError = b.connectionError ∧
      ((∀ e, callback ≠ .failResolution e) →
        (b.handle callback).balancer.resolverError = b.resolverError) := by
  cases callback with
  | update => exact absurd trivial h
  | failResolution e =>
    have hheld : ¬b.connections.isEmpty := fun hempty => h (Std.ExtTreeMap.isEmpty_iff.mp hempty)
    have hbalancer : (b.failResolution e).balancer = { b with resolverError := some e } :=
      if_neg hheld
    rw [handle, hbalancer]
    exact ⟨rfl, rfl, rfl, fun hne => absurd rfl (hne e)⟩
  | report id new cause =>
    rw [handle, report_of_not_records h]
    exact ⟨rfl, rfl, rfl, fun _ => rfl⟩
  | close | exitIdle => exact ⟨rfl, rfl, rfl, fun _ => rfl⟩

/-! ## Histories -/

/-- While everything is failing, a picker was made since. -/
theorem exists_remade_run (p : Partitioner) (callbacks : List Callback)
    (hstate : (run p callbacks).balancer.state = .transientFailure) :
    ∃ before callback later, Latest p Remakes callbacks before callback later := by
  induction callbacks using List.reverseRecOn with
  | nil => cases hstate
  | append_singleton callbacks last ih =>
    simp only [latest_concat_iff]
    rw [run_concat, Outcome.balancer_after] at hstate
    by_cases hlast : (run p callbacks).balancer.Remakes last
    · exact ⟨callbacks, last, [], .inl ⟨hlast, rfl, rfl, rfl⟩⟩
    · rw [(kept_of_not_remakes hlast).1] at hstate
      obtain ⟨before, callback, later, h⟩ := ih hstate
      exact ⟨before, callback, later ++ [last], .inr ⟨hlast, later, rfl, h⟩⟩

/-- What calls are told since a picker was made. -/
structure Explained (p : Partitioner) (callbacks before : List Callback) (callback : Callback)
    (later : List Callback) : Prop where
  of_ring_error : ∀ e, ((run p before).balancer.handle callback).error = some (.ring e) →
    (run p callbacks).balancer.picker = .failing (.ring e)
  of_accepted : (∀ e, ((run p before).balancer.handle callback).error ≠ some (.ring e)) →
    (run p callbacks).balancer.picker = .failing (.told (run p callbacks).balancer.connectionError
      (run p (before ++ [callback])).balancer.resolverError)
  resolverError_eq : (∀ e, .failResolution e ∉ later) →
    (run p callbacks).balancer.resolverError = (run p (before ++ [callback])).balancer.resolverError

/-- While everything is failing, what calls are told goes back to the latest callback that made
the picker anew. -/
theorem explained_run (p : Partitioner) (callbacks : List Callback)
    (hstate : (run p callbacks).balancer.state = .transientFailure) {before later : List Callback}
    {callback : Callback} (h : Latest p Remakes callbacks before callback later) :
    Explained p callbacks before callback later := by
  induction callbacks using List.reverseRecOn generalizing later with
  | nil => cases hstate
  | append_singleton callbacks last ih =>
    rcases latest_concat_iff.mp h with ⟨hlast, rfl, rfl, rfl⟩ | ⟨hlast, between, rfl, hbefore⟩
    · have hexplains := (configured_run p before).explains_handle hlast
      refine ⟨fun e he => ?_, fun haccepted => ?_, fun _ => rfl⟩
      · rw [run_concat]
        exact hexplains.of_ring_error e he
      · rw [run_concat] at hstate ⊢
        exact hexplains.of_accepted haccepted hstate
    · obtain ⟨hstate', hpicker, hconnection, hresolver⟩ := kept_of_not_remakes hlast
      rw [run_concat, Outcome.balancer_after, hstate'] at hstate
      obtain ⟨hring, haccepted, hresolver'⟩ := ih hstate hbefore
      refine ⟨fun e he => ?_, fun h => ?_, fun hnone => ?_⟩
      · rw [run_concat, Outcome.balancer_after, hpicker, hring e he]
      · rw [run_concat, Outcome.balancer_after, hpicker, hconnection, haccepted h]
      · rw [run_concat, Outcome.balancer_after, hresolver fun e he => hnone e (by simp [he]),
          hresolver' fun e he => hnone e (List.mem_append_left _ he)]

/-- While everything is failing, that was published last, with a picker that fails all calls. -/
theorem exists_last_run (p : Partitioner) (callbacks : List Callback)
    (hstate : (run p callbacks).balancer.state = .transientFailure) :
    (published (run p callbacks).actions).getLast? =
      some (.transientFailure, (run p callbacks).balancer.picker) := by
  obtain ⟨before, callback, later, hlatest⟩ := exists_remade_run p callbacks hstate
  have hannounces := (configured_run p before).announces_of_remakes hlatest.holds
  have hbefore : published (run p (before ++ [callback])).actions ≠ [] := by
    rw [run_concat, Outcome.actions_after, published_append, hannounces.published_eq]
    simp
  have hle := prefix_run p (before ++ [callback]) later
  rw [List.append_assoc, List.singleton_append, ← hlatest.split] at hle
  have hsome : (published (run p callbacks).actions).getLast?.isSome := by
    rw [List.getLast?_isSome]
    exact fun hnil => hbefore (List.prefix_nil.mp (hnil ▸ hle.filterMap _))
  obtain ⟨last, hlast⟩ := Option.isSome_iff_exists.mp hsome
  rw [hlast, (agreed_run p callbacks).last_eq last hlast, hstate]

/-- What a call is told after a history that leaves everything failing, where the latest callback
that makes a picker is known: of the last connection error, and of what was the last error of
resolution when the picker was made. That is still the last one, if resolution has not failed
since. -/
theorem run_failure_told (p : Partitioner) (callbacks : List Callback)
    (hstate : (run p callbacks).balancer.state = .transientFailure) :
    ∃ picker, (published (run p callbacks).actions).getLast? = some (.transientFailure, picker) ∧
      (∃ before callback later, Latest p Remakes callbacks before callback later) ∧
      ∀ before callback later, Latest p Remakes callbacks before callback later →
        ∃ e, (∀ key chance m, (picker.pick key chance m).1 = .error e) ∧
          (∀ e', ((run p before).balancer.handle callback).error = some (.ring e') → e = .ring e') ∧
          ((∀ e', ((run p before).balancer.handle callback).error ≠ some (.ring e')) →
            ∃ connection resolver last, e = .told connection resolver ∧
              Noted p callbacks connection last ∧
              (∃ connection', Noted p (before ++ [callback]) connection' resolver) ∧
              ((∀ e', .failResolution e' ∉ later) → resolver = last)) := by
  refine ⟨_, exists_last_run p callbacks hstate, exists_remade_run p callbacks hstate,
    fun before callback later hlatest => ?_⟩
  obtain ⟨hring, haccepted, hresolver⟩ := explained_run p callbacks hstate hlatest
  by_cases h : ∃ e, ((run p before).balancer.handle callback).error = some (.ring e)
  · obtain ⟨e, he⟩ := h
    refine ⟨.ring e, fun key chance m => ?_, fun e' he' => ?_, fun hnot => absurd he (hnot e)⟩
    · rw [hring e he]
      rfl
    · rw [he] at he'
      exact Option.some.inj he'
  · have hnot (e : RingError) : ((run p before).balancer.handle callback).error ≠ some (.ring e) :=
      fun he => h ⟨e, he⟩
    refine ⟨.told (run p callbacks).balancer.connectionError
      (run p (before ++ [callback])).balancer.resolverError, fun key chance m => ?_,
      fun e he => absurd he (hnot e), fun _ => ?_⟩
    · rw [haccepted hnot]
      rfl
    · exact ⟨_, _, _, rfl, noted_run p callbacks, ⟨_, noted_run p (before ++ [callback])⟩,
        fun hnone => (hresolver hnone).symm⟩

/-- Resolution has failed since a handle failed. The next report of the handle makes a picker that
tells of both. -/
theorem run_reported_failure_told :
    let node : Address := ⟨"h:0", "", some "m"⟩
    let callbacks : List Callback :=
      [.update (fun _ a => some ⟨0, a⟩) [node] (some ⟨2, 1⟩),
        .report 0 .transientFailure (some (.connection "refused")),
        .failResolution (.resolver "unreachable"),
        .report 0 .transientFailure none]
    let o := run Ring.crowded callbacks
    ∃ picker, (published o.actions).getLast? = some (.transientFailure, picker) ∧
      ∀ key chance m, (picker.pick key chance m).1 =
        .error (.unavailable "sub-connection: subconn-0 failed; resolver: unreachable") := by
  intro node callbacks o
  obtain ⟨picker, hlast, -, htold⟩ := run_failure_told Ring.crowded callbacks (by decide)
  obtain ⟨e, hpick, -, haccepted⟩ := htold (callbacks.take 3) (.report 0 .transientFailure none) []
    ⟨rfl, ⟨.transientFailure, by decide, by decide⟩, by simp⟩
  have herror : ((run Ring.crowded (callbacks.take 3)).balancer.handle
      (.report 0 .transientFailure none)).error = none := by decide
  obtain ⟨connection, resolver, last, rfl, hnoted, -, hcurrent⟩ := haccepted fun e => herror ▸ nofun
  obtain ⟨hconnection, hlast'⟩ := hnoted.eq (noted_run _ callbacks)
  have hconnection' : o.balancer.connectionError = some (.connection "subconn-0 failed") := by
    decide
  have hresolver : o.balancer.resolverError = some (.resolver "unreachable") := by decide
  refine ⟨picker, hlast, fun key chance m => ?_⟩
  rw [hpick, hcurrent nofun, hconnection.trans hconnection', hlast'.trans hresolver]
  exact congrArg Except.error (by decide)

/-- What all calls are told, if they are told the same. -/
def failure? : Picker → Option BalancerError
  | .ring .. => none
  | .failing e => some e

/-- Calls are not told that resolution has failed since a handle failed, while the handle is
held. -/
theorem run_failure_untold :
    let node : Address := ⟨"h:0", "", some "m"⟩
    let callbacks : List Callback :=
      [.update (fun _ a => some ⟨0, a⟩) [node] (some ⟨2, 1⟩),
        .report 0 .transientFailure (some (.connection "refused")),
        .failResolution (.resolver "unreachable")]
    let o := run Ring.crowded callbacks
    let connection := some (.connection "refused")
    let resolver := some (.resolver "unreachable")
    o.balancer.state = .transientFailure ∧ Noted Ring.crowded callbacks connection resolver ∧
      ∃ picker, (published o.actions).getLast? = some (.transientFailure, picker) ∧
        (∀ key chance m, (picker.pick key chance m).1 =
          .error (.unavailable "sub-connection: refused")) ∧
        ∀ key chance m, (picker.pick key chance m).1 ≠ .error (.told connection resolver) := by
  intro node callbacks o connection resolver
  have hstate : o.balancer.state = .transientFailure := by decide
  have hnoted := noted_run Ring.crowded callbacks
  have hconnection : o.balancer.connectionError = connection := by decide
  have hresolver : o.balancer.resolverError = resolver := by decide
  have hfailure : failure? o.balancer.picker = some (.unavailable "sub-connection: refused") := by
    decide
  have hpicker : o.balancer.picker = .failing (.unavailable "sub-connection: refused") := by
    cases hp : o.balancer.picker with
    | ring members spread =>
      rw [hp] at hfailure
      cases hfailure
    | failing e =>
      rw [hp] at hfailure
      cases hfailure
      rfl
  rw [hconnection, hresolver] at hnoted
  refine ⟨hstate, hnoted, _, exists_last_run _ callbacks hstate, fun key chance m => ?_,
    fun key chance m => ?_⟩
  · rw [hpicker]
    rfl
  · rw [hpicker]
    exact fun h => absurd (Except.error.inj h) (by decide)

end Balancer

end RingRouting
