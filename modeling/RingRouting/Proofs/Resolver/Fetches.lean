import RingRouting.Proofs.Resolver.Deeds
import RingRouting.Proofs.Resolver.Rest

/-!
# When full fetches happen

The loop that refreshes owes a fetch for each request, and one for a deadline that has come, which
leaves at most one of the requests. While the loops take turns and nothing comes from outside, it
makes these fetches and no other, all at the same moment, and then waits for a whole interval; only
a fetch that nobody is left to be told of ends it before. Main statement: `exists_progress_settle`.
-/

namespace RingRouting

namespace Deed

/-- A full fetch is made, be it a failed one. -/
def isFetch : Deed → Bool
  | fetch _ | fail _ => true
  | take _ | replace _ => false

/-- Fetches are those that succeeded and those that failed. -/
theorem length_filter_isFetch (ds : List Deed) : (ds.filter isFetch).length =
    (ds.filterMap fetched?).length + (ds.filterMap failed?).length := by
  induction ds with
  | nil => rfl
  | cons d rest ih =>
    rw [List.filter_cons]
    cases d <;> simp [List.filterMap_cons, isFetch, fetched?, failed?, ih] <;> omega

end Deed

namespace Resolver

variable {r r' r'' : Resolver} {k : Nat}

/-! ## The times of the fetches -/

/-- The full fetches that a move makes happen. -/
def fetchDeeds (r : Resolver) (m : Move) : List Deed :=
  (r.deeds m).filter Deed.isFetch

/-- When full fetches happen while moves are made one after the other. -/
def fetchTimes : Resolver → List Move → List Nat
  | _, [] => []
  | r, m :: rest => List.replicate (r.fetchDeeds m).length r.now ++ (r.move m).fetchTimes rest

/-- The fetches of moves one after the other follow each other. -/
theorem fetchTimes_append (r : Resolver) (moves moves' : List Move) :
    r.fetchTimes (moves ++ moves') = r.fetchTimes moves ++ (r.follow moves).fetchTimes moves' := by
  induction moves generalizing r with
  | nil => rfl
  | cons m rest ih =>
    rw [List.cons_append, fetchTimes, fetchTimes, ih, List.append_assoc]
    rfl

/-- The loop that applies makes no fetch. -/
theorem filter_nextDeeds_apply (r : Resolver) : (r.nextDeeds .apply).filter Deed.isFetch = [] := by
  dsimp only [nextDeeds]
  split
  next =>
    cases r.syncs with
    | cons nodes rest => rfl
    | nil => cases r.receive? <;> rfl
  next => rfl

/-- The loop that refreshes makes one fetch in a step, unless it begins or ends. -/
theorem length_filter_nextDeeds_refresh (hphase : r.refreshing = .running)
    (hopen : r.closed = false) :
    ((r.nextDeeds .refresh).filter Deed.isFetch).length = 1 := by
  rw [nextDeeds, if_pos ⟨hphase, hopen⟩]
  cases query r.registry r.outage r.settings.selection <;> rfl

/-- Only the loop that refreshes fetches. -/
theorem fetchDeeds_eq_nil (r : Resolver) {m : Move} (hm : m ≠ .step .refresh) :
    r.fetchDeeds m = [] := by
  cases m with
  | step l =>
    cases l with
    | refresh => exact absurd rfl hm
    | apply =>
      rw [fetchDeeds, deeds]
      split
      next => exact r.filter_nextDeeds_apply
      next => rfl
  | registry | push | endWatch | setOutage | resolveNow | close | release | clock | queue => rfl

/-- What a step of the loop that applies leaves alone. -/
theorem Applied.exists_eq (h : Applied r r') :
    ∃ applying watchOpen roster snapshot updates syncs registry feed,
      r' = { r with applying, watchOpen, roster, snapshot, updates, syncs, registry, feed } := by
  cases h with
  | start | replace =>
    obtain ⟨_, _, _, _, hpublish, -⟩ := exists_publish _
    exact ⟨_, _, _, _, _, _, _, _, hpublish⟩
  | stop =>
    obtain ⟨registry, feed, hstop⟩ := exists_stopApplying r
    exact ⟨_, _, _, _, _, _, _, _, hstop⟩
  | change hphase hopen hsyncs hreceive =>
    obtain ⟨_, _, rfl⟩ := exists_receive? hreceive
    obtain ⟨_, _, _, _, hpublish, -⟩ := exists_publish _
    exact ⟨_, _, _, _, _, _, _, _, hpublish⟩
  | exhaust => exact ⟨_, _, _, _, _, _, _, _, rfl⟩

/-! ## What is owed -/

/-- When the next full fetch is due, also before the loop that refreshes begins to wait for it. -/
def dueAt (r : Resolver) : Nat :=
  if r.refreshing = .starting then r.now + r.settings.interval else r.deadline

/-- How many full fetches are to be made before the loop that refreshes waits again. -/
def owed (r : Resolver) : Nat :=
  if r.dueAt ≤ r.now then min r.requests 1 + 1 else r.requests

/-- Once the loop that refreshes has begun, its next fetch is due at the deadline. -/
theorem dueAt_of_phase (hphase : r.refreshing.phase = .running) : r.dueAt = r.deadline :=
  if_neg fun hstart => absurd (hstart ▸ hphase) Phase.noConfusion

theorem dueAt_of_running (hphase : r.refreshing = .running) : r.dueAt = r.deadline :=
  dueAt_of_phase (hphase ▸ rfl)

/-- A deadline that comes by itself is for one fetch. -/
theorem owed_of_deadline_le (hphase : r.refreshing = .running) (hdue : r.deadline ≤ r.now)
    (hrequests : r.requests = 0) : r.owed = 1 := by
  rw [owed, dueAt_of_running hphase, if_pos hdue, hrequests]
  rfl

/-- Before the deadline only what was requested is owed. -/
theorem owed_of_lt_deadline (hphase : r.refreshing = .running) (hdue : r.now < r.deadline) :
    r.owed = r.requests := by
  rw [owed, dueAt_of_running hphase, if_neg (Nat.not_le_of_lt hdue)]

/-- A fetch that is begun is one that was owed. -/
theorem owed_begun (hphase : r.refreshing = .running) (hdue : r.Due) :
    r.begun.owed + 1 = r.owed := by
  have hpos := r.settings.interval_pos
  have hbegun : r.begun.dueAt = r.now + r.settings.interval := dueAt_of_running hphase
  have hnow : r.begun.now = r.now := rfl
  rw [owed, owed, hbegun, hnow, dueAt_of_running hphase, if_neg (by omega)]
  dsimp only [begun]
  rw [Due] at hdue
  split <;> omega

/-- How far the loops have come in making the fetches that were owed in `r`, when they made `k` of
them. -/
structure Progress (r : Resolver) (k : Nat) (r' : Resolver) : Prop where
  now_eq : r'.now = r.now
  settings_eq : r'.settings = r.settings
  closed_eq : r'.closed = r.closed
  held_eq : r'.held = r.held
  going : r'.refreshing ≠ .ended → k + r'.owed = r.owed ∧
    r'.dueAt = if k = 0 then r.dueAt else r.now + r.settings.interval
  /-- What the loop that refreshes hands over is one of the lists that it fetched. -/
  sending : ∀ nodes, r'.refreshing = .sending nodes → 0 < k
  /-- The loop that refreshes ends only with a fetch that nobody is left to be told of. -/
  ended : r'.refreshing = .ended → r'.applying = .ended ∧ 0 < k ∧ k ≤ r.owed

theorem Progress.refl (h : r.refreshing ≠ .ended) (hidle : ∀ nodes, r.refreshing ≠ .sending nodes) :
    Progress r 0 r :=
  ⟨rfl, rfl, rfl, rfl, fun _ => ⟨Nat.zero_add _, rfl⟩,
    fun nodes hsending => absurd hsending (hidle nodes),
    fun hend => absurd hend h⟩

/-- A step of the loop that applies makes no fetch. -/
theorem Progress.applied (h : Progress r k r') (hstep : Applied r' r'') : Progress r k r'' := by
  have hends : r'.applying = .ended → r''.applying = .ended := (Moved.apply hstep).applying_eq_ended
  obtain ⟨_, _, _, _, _, _, _, _, rfl⟩ := hstep.exists_eq
  exact { h with ended := fun hend => (h.ended hend).imp_left hends }

/-- One more of the fetches is made, and the loop goes on. -/
theorem Progress.fetched (h : Progress r k r') (hphase : r'.refreshing = .running) (hdue : r'.Due)
    (fetches : Nat) (errors : List ResolutionError) (syncs : List (List Node))
    {refreshing : RefreshPhase} (hgoing : refreshing.phase = .running) :
    Progress r (k + 1) { r'.begun with fetches, errors, syncs, refreshing } := by
  obtain ⟨howed, -⟩ := h.going (hphase ▸ RefreshPhase.noConfusion)
  have hbegun : r'.begun.owed + 1 = r'.owed := owed_begun hphase hdue
  have hdueAt : ({ r'.begun with fetches, errors, syncs, refreshing } : Resolver).dueAt =
    r'.begun.dueAt :=
    (dueAt_of_phase hgoing).trans (dueAt_of_running (r := r'.begun) hphase).symm
  have howed' : ({ r'.begun with fetches, errors, syncs, refreshing } : Resolver).owed =
    r'.begun.owed := by rw [owed, owed, hdueAt]
  refine { h with
    going := fun _ => ⟨?_, ?_⟩
    sending := fun _ _ => k.succ_pos
    ended := fun hend => ?_ }
  · omega
  · rw [if_neg (Nat.succ_ne_zero k), ← h.now_eq, ← h.settings_eq, hdueAt]
    exact dueAt_of_running hphase
  · rw [show refreshing = .ended from hend] at hgoing
    exact Phase.noConfusion hgoing

/-- The loop goes back to wait, and no other fetch becomes due by it. -/
theorem Progress.waits (h : Progress r k r') (hphase : r'.refreshing ≠ .ended) {deadline : Nat}
    (hdueAt : r'.dueAt = deadline) (syncs : List (List Node)) :
    Progress r k { r' with refreshing := .running, deadline, syncs } := by
  obtain ⟨howed, hdue⟩ := h.going hphase
  refine { h with
    going := fun _ => ⟨?_, ?_⟩
    sending := fun _ hsending => RefreshPhase.noConfusion hsending
    ended := fun hend => RefreshPhase.noConfusion hend }
  · rw [← howed, owed, owed, hdueAt]
    rfl
  · rw [← hdue, hdueAt]
    rfl

/-- A step of the loop that refreshes makes one of those owed, or none. -/
theorem Progress.refreshed (h : Progress r k r') (hopen : r.closed = false)
    (hstep : Refreshed r' r'') :
    Progress r (k + ((r'.nextDeeds .refresh).filter Deed.isFetch).length) r'' := by
  cases hstep with
  | start hphase =>
    have hgoing : r'.refreshing ≠ .ended := hphase ▸ RefreshPhase.noConfusion
    rw [nextDeeds_refresh_of_starting hphase]
    exact h.waits hgoing (if_pos hphase) _
  | stop hphase hclosed =>
    exact absurd (h.closed_eq.symm.trans hclosed) (hopen ▸ Bool.false_ne_true)
  | fetch hphase hopen' hdue | wait hphase hopen' hdue =>
    rw [length_filter_nextDeeds_refresh hphase hopen']
    exact h.fetched hphase hdue _ _ _ rfl
  | fail hphase hopen' hdue =>
    rw [length_filter_nextDeeds_refresh hphase hopen']
    exact h.fetched hphase hdue _ _ _ (hphase ▸ rfl)
  | orphan hphase hopen' hdue hquery hgone =>
    obtain ⟨howed, -⟩ := h.going (hphase ▸ RefreshPhase.noConfusion)
    have hbegun : r'.begun.owed + 1 = r'.owed := owed_begun hphase hdue
    rw [length_filter_nextDeeds_refresh hphase hopen']
    exact { h with
      going := fun hend => absurd rfl hend
      sending := fun _ _ => k.succ_pos
      ended := fun _ => ⟨hgone, by omega, by omega⟩ }
  | deliver hphase =>
    have hgoing : r'.refreshing ≠ .ended := hphase ▸ RefreshPhase.noConfusion
    rw [nextDeeds_refresh_of_sending hphase]
    exact h.waits hgoing (dueAt_of_phase (hphase ▸ rfl)) _
  | abandon hphase hgone =>
    obtain ⟨howed, -⟩ := h.going (hphase ▸ RefreshPhase.noConfusion)
    rw [nextDeeds_refresh_of_sending hphase, List.filter_nil, List.length_nil, Nat.add_zero]
    exact { h with
      going := fun hend => absurd rfl hend
      sending := fun _ _ => h.sending _ hphase
      ended := fun _ => ⟨hgone, h.sending _ hphase, by omega⟩ }

/-! ## Turns -/

/-- Nothing comes from outside, and no time passes. -/
def Move.isInner : Move → Bool
  | .step _ | .queue _ => true
  | _ => false

/-- A turn of a loop consists of inner moves. -/
theorem isInner_turnMoves (l : Loop) (n : Nat) (r : Resolver) :
    ∀ m ∈ r.turnMoves l n, m.isInner := by
  induction n generalizing r with
  | zero => exact List.forall_mem_nil _
  | succ n ih =>
    rw [turnMoves]
    split
    next next hstep => exact List.forall_mem_cons.mpr ⟨rfl, ih next⟩
    next => exact List.forall_mem_nil _

theorem isInner_settleMoves (r : Resolver) : ∀ m ∈ r.settleMoves, m.isInner := by
  fun_induction settleMoves r with
  | case1 => exact List.forall_mem_nil _
  | case2 r l rest hready next hstep turned ih =>
    simp only [List.forall_mem_cons, List.forall_mem_append]
    exact ⟨rfl, isInner_turnMoves l _ next, rfl, rfl, ih⟩
  | case3 r l rest hready hstep ih => exact List.forall_mem_cons.mpr ⟨rfl, ih⟩

/-- Every inner move makes as much progress as it makes fetches. -/
theorem Progress.move (h : Progress r k r') (hopen : r.closed = false) {m : Move} (hm : m.isInner) :
    Progress r (k + (r'.fetchDeeds m).length) (r'.move m) := by
  cases m with
  | queue ready =>
    exact { h with }
  | step l =>
    cases hstep : r'.step? l with
    | none =>
      obtain ⟨hmove, hdeeds⟩ := move_step_of_eq_none hstep
      rw [hmove, fetchDeeds, hdeeds]
      exact h
    | some next =>
      obtain ⟨hmove, hdeeds⟩ := move_step_of_eq_some hstep
      cases l with
      | apply =>
        rw [hmove, fetchDeeds_eq_nil _ (by simp)]
        exact h.applied (applied_of_applyStep? hstep)
      | refresh =>
        rw [hmove, fetchDeeds, hdeeds]
        exact h.refreshed hopen (refreshed_of_refreshStep? hstep)
  | registry | push | endWatch | setOutage | resolveNow | close | release | clock => cases hm

/-- As long as nothing comes from outside, the fetches that are owed are made, at the same
moment. -/
theorem Progress.follow (h : Progress r k r') (hopen : r.closed = false) {moves : List Move}
    (hinner : ∀ m ∈ moves, m.isInner) :
    ∃ j, r'.fetchTimes moves = List.replicate j r.now ∧ Progress r (k + j) (r'.follow moves) := by
  induction moves generalizing r' k with
  | nil => exact ⟨0, rfl, h⟩
  | cons m rest ih =>
    obtain ⟨hm, hrest⟩ := List.forall_mem_cons.mp hinner
    obtain ⟨j, htimes, hfollow⟩ := ih (h.move hopen hm) hrest
    refine ⟨(r'.fetchDeeds m).length + j, ?_, Nat.add_assoc .. ▸ hfollow⟩
    rw [fetchTimes, htimes, h.now_eq, List.replicate_append_replicate]

/-- Once the loops are at rest nothing is owed any more. -/
theorem AtRest.owed_eq_zero (h : r.AtRest) (hphase : r.refreshing ≠ .ended) :
    r.refreshing = .running ∧ r.owed = 0 := by
  have hstep := r.isSome_refreshStep?
  rw [show r.refreshStep? = none from h .refresh] at hstep
  cases hrunning : r.refreshing with
  | starting => simp [hrunning] at hstep
  | ended => exact absurd hrunning hphase
  | sending nodes => exact absurd hrunning (h.not_sending nodes)
  | running =>
    simp only [hrunning, Option.isSome_none, Bool.false_eq, Bool.or_eq_false_iff,
      decide_eq_false_iff_not] at hstep
    rw [owed, dueAt_of_running hrunning, if_neg hstep.1.2]
    exact ⟨rfl, Nat.eq_zero_of_not_pos hstep.2⟩

/-- Until both loops are at rest they make the fetches that are owed, unless the loop that refreshes
ends with one of them. -/
theorem exists_progress_settle (hqueued : r.Queued) (hopen : r.closed = false)
    (hphase : r.refreshing ≠ .ended) (hidle : ∀ nodes, r.refreshing ≠ .sending nodes) :
    ∃ k, r.fetchTimes r.settleMoves = List.replicate k r.now ∧ Progress r k r.settle ∧
      (r.settle.refreshing = .running ∧ k = r.owed ∨
        r.settle.refreshing = .ended ∧ r.settle.applying = .ended ∧ 0 < k ∧ k ≤ r.owed) := by
  obtain ⟨k, htimes, hprogress⟩ := (Progress.refl hphase hidle).follow hopen r.isInner_settleMoves
  rw [follow_settleMoves, Nat.zero_add] at hprogress
  refine ⟨k, htimes, hprogress, ?_⟩
  by_cases hend : r.settle.refreshing = .ended
  · exact .inr ⟨hend, hprogress.ended hend⟩
  · obtain ⟨hrunning, hnone⟩ := (atRest_settle hqueued).owed_eq_zero hend
    have howed := (hprogress.going hend).1
    rw [hnone] at howed
    exact .inl ⟨hrunning, howed⟩

/-! ## Once the loop that refreshes has ended -/

/-- The loop that refreshes never begins again. -/
theorem Moved.refreshing_eq_ended (hmoved : Moved r r') (h : r.refreshing = .ended) :
    r'.refreshing = .ended := by
  cases hmoved with
  | apply hstep =>
    obtain ⟨_, _, _, _, _, _, _, _, rfl⟩ := hstep.exists_eq
    exact h
  | refresh hstep =>
    cases hstep with
    | start hphase | stop hphase | fetch hphase | wait hphase | orphan hphase | fail hphase
    | deliver hphase | abandon hphase => exact absurd (h.symm.trans hphase) RefreshPhase.noConfusion
  | outside => exact h

theorem refreshing_follow_of_ended (h : r.refreshing = .ended) (moves : List Move) :
    (r.follow moves).refreshing = .ended := by
  induction moves generalizing r with
  | nil => exact h
  | cons m rest ih => exact ih ((r.moved_move m).refreshing_eq_ended h)

/-- No full fetch is made any more. -/
theorem fetchTimes_of_ended (h : r.refreshing = .ended) (moves : List Move) :
    r.fetchTimes moves = [] := by
  induction moves generalizing r with
  | nil => rfl
  | cons m rest ih =>
    have hnone : r.fetchDeeds m = [] := by
      by_cases hm : m = .step .refresh
      · subst hm
        rw [fetchDeeds, (move_step_of_eq_none (by simp [step?, refreshStep?, h])).2]
        rfl
      · exact r.fetchDeeds_eq_nil hm
    rw [fetchTimes, hnone, ih ((r.moved_move m).refreshing_eq_ended h)]
    rfl

/-! ## The number of fetches -/

/-- There is one time for each fetch. -/
theorem length_fetchTimes (r : Resolver) (moves : List Move) :
    (r.fetchTimes moves).length = ((r.deedsBy moves).filter Deed.isFetch).length := by
  induction moves generalizing r with
  | nil => rfl
  | cons m rest ih =>
    rw [fetchTimes, deedsBy, List.length_append, List.length_replicate, ih, List.filter_append,
      List.length_append]
    rfl

/-- Besides the first one, the fetches are those that the loops made. -/
theorem fetches_follow_eq {settings : Settings} {feed : Feed} {registry : Registry}
    {outage : Option String}
    (hstart : ofFeed settings feed registry outage = .ok r) (moves : List Move) :
    (r.follow moves).fetches = 1 + (r.fetchTimes moves).length := by
  have haccounts := accounts_follow (accounts_ofFeed hstart) moves
  rw [haccounts.fetches_eq, length_fetchTimes, Deed.length_filter_isFetch, Nat.add_assoc]
  rfl

end Resolver

end RingRouting
