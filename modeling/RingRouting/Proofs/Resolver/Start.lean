import RingRouting.Proofs.Resolver.Schedule

/-!
# The start of a resolver

When a resolver starts over a registry, its loops go on until both are at rest: the one that applies
pushes what the first full fetch brought, the one that refreshes begins to wait. As nobody else does
anything to the registry meanwhile, that is all, and the consumer got one list. Main statement:
`exists_start_eq`.
-/

namespace RingRouting

/-- There is nothing to receive from a new watch. -/
theorem Registry.receive?_watch (registry : Registry) (s : Selection) :
    (registry.watch s).2.receive? (registry.watch s).1 = none := by
  rw [receive?, mailbox?, registry.watch?_watch s]
  rfl

namespace Resolver

variable {r r' : Resolver} {l : Loop}

/-- A loop that cannot go on leaves its turn at once. -/
theorem turn_of_step?_eq_none (h : r.step? l = none) (n : Nat) : r.turn l n = r := by
  cases n with
  | zero => rfl
  | succ n => rw [turn, h]

/-- A loop that can make a single step makes it in its turn. -/
theorem settle_of_ready_eq_cons {rest : List Loop} (hready : r.ready = l :: rest)
    (hstep : r.step? l = some r') (hrest : r'.step? l = none) :
    r.settle = { r' with ready := rest }.wake.settle := by
  rw [settle]
  split
  next hnil => rw [hready] at hnil; cases hnil
  next l' rest' hcons =>
    obtain ⟨rfl, rfl⟩ := List.cons.inj (hready.symm.trans hcons)
    split
    next next hnext =>
      obtain rfl := Option.some.inj (hstep.symm.trans hnext)
      rw [turn_of_step?_eq_none hrest]
    next hnone => rw [hstep] at hnone; cases hnone

/-- Nothing has happened yet that a loop would have to see to. -/
structure Calm (watch : Nat) (r : Resolver) : Prop where
  feed_eq : r.feed = .registry watch
  receive?_eq : r.registry.receive? watch = none
  closed_eq : r.closed = false
  syncs_eq : r.syncs = []
  requests_eq : r.requests = 0

variable {watch : Nat}

theorem Calm.queue (h : r.Calm watch) (ready : List Loop) :
    ({ r with ready } : Resolver).Calm watch :=
  { h with }

/-- The loop that applies pushes what was fetched at the start. -/
theorem applyStep?_starting (hphase : r.applying = .starting)
    (hanswer : r.settings.answer r.updates r.roster.addresses ≠ .crashed) :
    r.applyStep? = some { r with applying := .running }.noteUpdate := by
  simp only [applyStep?, hphase, publish, if_neg hanswer]

/-- In calm the loop that applies waits. -/
theorem Calm.applyStep?_running (h : r.Calm watch) (hphase : r.applying = .running) :
    r.applyStep? = none := by
  simp [applyStep?, hphase, h.closed_eq, h.syncs_eq, receive?, feedEnded, h.feed_eq, h.receive?_eq]

/-- The loop that refreshes begins by setting its clock. -/
theorem refreshStep?_starting (hphase : r.refreshing = .starting) :
    r.refreshStep? =
      some { r with refreshing := .running, deadline := r.now + r.settings.interval } := by
  simp only [refreshStep?, hphase]

/-- In calm the loop that refreshes waits until its deadline. -/
theorem Calm.refreshStep?_waiting (h : r.Calm watch) (hphase : r.refreshing = .running)
    (hdeadline : r.now < r.deadline) : r.refreshStep? = none := by
  simp [refreshStep?, hphase, h.closed_eq, h.requests_eq, hdeadline]

/-- Both loops have begun and wait. -/
structure Waits (watch : Nat) (r : Resolver) : Prop extends r.Calm watch where
  applying_eq : r.applying = .running
  refreshing_eq : r.refreshing = .running
  now_lt : r.now < r.deadline

/-- A resolver that waits makes no step. -/
theorem Waits.step?_eq_none (h : r.Waits watch) (l : Loop) : r.step? l = none := by
  cases l with
  | apply => exact h.applyStep?_running h.applying_eq
  | refresh => exact h.refreshStep?_waiting h.refreshing_eq h.now_lt

/-- The loop that refreshes makes its first step. -/
theorem Calm.updates_settle (h : r.Calm watch) (happlying : r.applying = .running)
    (hrefreshing : r.refreshing = .starting) (hready : r.ready = [.refresh]) :
    r.settle.updates = r.updates := by
  obtain ⟨next, hstep, hwaits, hupdates⟩ : ∃ next, r.step? .refresh = some next ∧
      (∀ ready, ({ next with ready } : Resolver).Waits watch) ∧ next.updates = r.updates :=
    ⟨_, refreshStep?_starting hrefreshing, fun ready =>
      ⟨{ h with }, happlying, rfl, Nat.lt_add_of_pos_right r.settings.interval_pos⟩, rfl⟩
  have hrest := (hwaits []).step?_eq_none
  have hwake : ({ next with ready := [] } : Resolver).wake.ready = [] := by simp [wake, hrest]
  rw [settle_of_ready_eq_cons hready hstep ((hwaits next.ready).step?_eq_none _),
    settle_of_ready_eq_nil hwake, ← hupdates]
  rfl

/-- The loop that applies makes its first step, and after it the other loop. -/
theorem Calm.updates_settle_wake (h : r.Calm watch) (happlying : r.applying = .starting)
    (hrefreshing : r.refreshing = .starting) (hready : r.ready = [])
    (hanswer : r.settings.answer r.updates r.roster.addresses ≠ .crashed) :
    r.wake.settle.updates = r.roster.addresses :: r.updates := by
  have happly : r.step? .apply = _ := applyStep?_starting happlying hanswer
  have hrefresh : r.step? .refresh = _ := refreshStep?_starting hrefreshing
  have hwake : r.wake.ready = [.apply, .refresh] := by simp [wake, hready, happly, hrefresh]
  obtain ⟨next, hstep, hcalm, hnext, hnext', hupdates⟩ : ∃ next, r.wake.step? .apply = some next ∧
      next.Calm watch ∧ next.applying = .running ∧ next.refreshing = .starting ∧
      next.updates = r.roster.addresses :: r.updates :=
    ⟨_, applyStep?_starting happlying hanswer, ⟨h.feed_eq, h.receive?_eq, h.closed_eq, h.syncs_eq,
      h.requests_eq⟩, rfl, hrefreshing, rfl⟩
  -- the loop has nothing left to do in its turn, and the other one is queued already
  have hrest : ({ next with ready := [.refresh] } : Resolver).step? .apply = none :=
    (hcalm.queue _).applyStep?_running hnext
  have hwake' : ({ next with ready := [.refresh] } : Resolver).wake.ready = [.refresh] := by
    simp [wake, hrest]
  rw [settle_of_ready_eq_cons hwake hstep (hcalm.applyStep?_running hnext), ← hupdates]
  exact Calm.updates_settle (hcalm.queue _) hnext hnext' hwake'

/-- A resolver starts, and gives its consumer the addresses of the nodes that are selected, once. -/
theorem exists_start_eq {target : Target} (hscheme : target.scheme = Target.ownScheme)
    (protocol : Protocol) (tags : List String) {interval : Nat} (hinterval : interval ≠ 0)
    {answer : Consumer} (hanswer : ∀ as, answer [] as ≠ .crashed) {registry : Registry}
    (hkeyed : registry.Keyed) :
    ∃ r, start target protocol tags interval answer .registry registry none = .ok r ∧
      r.updates = [(registry.select ⟨target.endpoint, protocol, tags⟩).map Node.address] := by
  unfold start
  rw [if_neg (not_not_intro hscheme), dif_neg hinterval]
  refine ⟨_, rfl, (Calm.updates_settle_wake
    ⟨rfl, registry.receive?_watch _, rfl, rfl, rfl⟩ rfl rfl rfl (hanswer _)).trans ?_⟩
  have hselected : (Roster.ofList (registry.select ⟨target.endpoint, protocol, tags⟩)).toList =
      registry.select ⟨target.endpoint, protocol, tags⟩ := by
    rw [hkeyed.ofList_select, Registry.toList_roster]
  exact congrArg (fun nodes => [nodes.map Node.address]) hselected

end Resolver

end RingRouting
