import RingRouting.Proofs.Resolver.Fetches

/-!
# The passing of time

While time passes an idle resolver stops at each deadline of a full fetch, a deadline at the very
end included, and nowhere else. So the passing of a time is a stop at the first deadline, if one
comes, and then the passing of what is left of it, by `Idle.run_advance_stop` and
`Idle.run_advance_quiet`; how many stops were allowed for does not matter. Nor does it matter in how
many parts a time is passed. Main statement: `Idle.advance_add`.
-/

namespace RingRouting.Resolver

variable {r : Resolver} {time : Nat}

/-! ## At another moment -/

/-- The loop that applies does not look at the clock. -/
theorem isSome_applyStep?_clock (r : Resolver) (now : Nat) :
    ({ r with now } : Resolver).applyStep?.isSome = r.applyStep?.isSome := by
  have hreceive : ({ r with now } : Resolver).receive?.isSome = r.receive?.isSome := by
    unfold receive?
    cases r.feed <;> simp
  simp only [isSome_applyStep?, hreceive, feedEnded]

/-- An idle resolver waits for a deadline that is still to come, and has nothing else to do. -/
theorem Idle.of_running (h : r.Idle) (hphase : r.refreshing = .running) :
    r.closed = false ∧ r.now < r.deadline ∧ r.requests = 0 := by
  have hstep := r.isSome_refreshStep?
  rw [show r.refreshStep? = none from h.atRest .refresh] at hstep
  simpa [hphase, and_assoc] using hstep

/-- Until the deadline an idle resolver stays idle. -/
theorem Idle.clock (h : r.Idle) {now : Nat} (hbefore : r.refreshing = .running → now < r.deadline) :
    ({ r with now } : Resolver).Idle := by
  refine ⟨fun l => Option.not_isSome_iff_eq_none.mp ?_, h.ready_eq⟩
  cases l with
  | apply =>
    rw [step?, isSome_applyStep?_clock, show r.applyStep? = none from h.atRest .apply]
    exact Bool.false_ne_true
  | refresh =>
    have hstep := r.isSome_refreshStep?
    rw [show r.refreshStep? = none from h.atRest .refresh] at hstep
    rw [step?, isSome_refreshStep?]
    cases hphase : r.refreshing with
    | starting => simp [hphase] at hstep
    | ended => simp
    | sending nodes => exact absurd hphase (h.atRest.not_sending nodes)
    | running =>
      obtain ⟨hopen, -, hrequests⟩ := h.of_running hphase
      simp [hopen, hrequests, hbefore hphase]

/-- The resolver once that moment has come, with no stop before, and the loops are at rest again. -/
def arrive (r : Resolver) (now : Nat) : Resolver :=
  { r with now }.wake.settle

/-- The moves by which it comes. -/
def arriveMoves (r : Resolver) (now : Nat) : List Move :=
  .clock now :: .queue { r with now }.wake.ready :: { r with now }.wake.settleMoves

/-- These moves lead to that moment. -/
theorem follow_arriveMoves (r : Resolver) (now : Nat) :
    r.follow (r.arriveMoves now) = r.arrive now :=
  follow_settleMoves _

theorem fetchTimes_arriveMoves (r : Resolver) (now : Nat) :
    r.fetchTimes (r.arriveMoves now) =
      { r with now }.wake.fetchTimes { r with now }.wake.settleMoves := rfl

/-- After a moment has come the loops are at rest again. -/
theorem idle_arrive (r : Resolver) (now : Nat) : (r.arrive now).Idle :=
  idle_settle (queued_wake _)

/-- Nothing happens until the deadline. -/
theorem Idle.arrive_eq (h : r.Idle) {now : Nat}
    (hbefore : r.refreshing = .running → now < r.deadline) :
    r.arrive now = { r with now } := by
  have hidle := h.clock hbefore
  rw [arrive, wake_of_queued hidle.queued, hidle.settle_eq]

/-- Nothing is left to do at rest. -/
theorem Idle.settleMoves_eq (h : r.Idle) : r.settleMoves = [] := by
  rw [settleMoves]
  split
  next => rfl
  next hready => rw [h.ready_eq] at hready; cases hready

/-! ## Stops -/

/-- What happens at a deadline that has come. -/
theorem Idle.arrive_deadline (h : r.Idle) (hphase : r.refreshing = .running) :
    (r.arrive r.deadline).now = r.deadline ∧ (r.arrive r.deadline).settings = r.settings ∧
      (r.arrive r.deadline).held = r.held ∧ r.fetchTimes (r.arriveMoves r.deadline) = [r.deadline] ∧
      ((r.arrive r.deadline).refreshing = .running ∧
          (r.arrive r.deadline).deadline = r.deadline + r.settings.interval ∨
        (r.arrive r.deadline).refreshing = .ended ∧ (r.arrive r.deadline).applying = .ended) := by
  obtain ⟨hopen, -, hrequests⟩ := h.of_running hphase
  have howed : ({ r with now := r.deadline } : Resolver).wake.owed = 1 :=
    owed_of_deadline_le hphase (Nat.le_refl _) hrequests
  obtain ⟨k, htimes, hprogress, hcase⟩ :=
    exists_progress_settle (queued_wake { r with now := r.deadline })
    hopen (hphase ▸ RefreshPhase.noConfusion) fun _ => hphase ▸ RefreshPhase.noConfusion
  obtain rfl : k = 1 := by omega
  refine ⟨hprogress.now_eq, hprogress.settings_eq, hprogress.held_eq, htimes, ?_⟩
  rcases hcase with ⟨hrunning, -⟩ | ⟨hend, hgone, -⟩
  · have hdueAt := (hprogress.going (hrunning ▸ RefreshPhase.noConfusion)).2
    rw [dueAt_of_running hrunning] at hdueAt
    exact .inl ⟨hrunning, hdueAt⟩
  · exact .inr ⟨hend, hgone⟩

/-- The next deadline is one interval after the last. -/
theorem Idle.deadline_arrive (h : r.Idle) (hphase : r.refreshing = .running)
    (hnext : (r.arrive r.deadline).refreshing = .running) :
    (r.arrive r.deadline).deadline = r.deadline + r.settings.interval := by
  obtain ⟨-, -, -, -, ⟨-, hdeadline⟩ | ⟨hend, -⟩⟩ := h.arrive_deadline hphase
  · exact hdeadline
  · exact absurd (hnext.symm.trans hend) RefreshPhase.noConfusion

/-- A deadline before the target comes first. -/
theorem advanceToMoves_of_lt {target : Nat} (hphase : r.refreshing = .running)
    (hlt : r.deadline < target) (n : Nat) : r.advanceToMoves target (n + 1) =
      r.arriveMoves r.deadline ++ (r.arrive r.deadline).advanceToMoves target n :=
  if_pos ⟨hphase, hlt⟩

/-- Without one the target comes at once. -/
theorem advanceToMoves_of_not {target : Nat}
    (hnone : ¬(r.refreshing = .running ∧ r.deadline < target)) (n : Nat) :
    r.advanceToMoves target n = [.clock target,
      .queue ({ r with now := target } : Resolver).wake.ready] := by
  cases n with
  | zero => rfl
  | succ n => exact if_neg hnone

/-- A stop that is not needed makes no difference. -/
theorem Idle.advanceToMoves_succ (h : r.Idle) {target n : Nat}
    (henough : r.refreshing = .running → target ≤ r.deadline + n * r.settings.interval) :
    r.advanceToMoves target (n + 1) = r.advanceToMoves target n := by
  induction n generalizing r with
  | zero =>
    have hnone : ¬(r.refreshing = .running ∧ r.deadline < target) := by
      rintro ⟨hphase, hlt⟩
      have hle := henough hphase
      omega
    rw [advanceToMoves_of_not hnone, advanceToMoves_of_not hnone]
  | succ n ih =>
    by_cases hstop : r.refreshing = .running ∧ r.deadline < target
    · obtain ⟨hphase, hlt⟩ := hstop
      obtain ⟨-, hsettings, -⟩ := h.arrive_deadline hphase
      rw [advanceToMoves_of_lt hphase hlt, advanceToMoves_of_lt hphase hlt,
        ih (idle_arrive r r.deadline) fun hnext => ?_]
      have hle := henough hphase
      rw [Nat.add_mul, Nat.one_mul] at hle
      rw [h.deadline_arrive hphase hnext, hsettings]
      omega
    · rw [advanceToMoves_of_not hstop, advanceToMoves_of_not hstop]

/-- Fuel for all deadlines up to the target is enough, and more changes nothing. -/
theorem Idle.advanceToMoves_congr (h : r.Idle) {target n m : Nat}
    (hn : r.refreshing = .running → target ≤ r.deadline + n * r.settings.interval)
    (hm : r.refreshing = .running → target ≤ r.deadline + m * r.settings.interval) :
    r.advanceToMoves target n = r.advanceToMoves target m := by
  have hmore (k i : Nat) (hk : r.refreshing = .running →
    target ≤ r.deadline + k * r.settings.interval) :
      r.advanceToMoves target (k + i) = r.advanceToMoves target k := by
    induction i with
    | zero => rfl
    | succ i ih =>
      rw [← Nat.add_assoc, h.advanceToMoves_succ fun hphase => ?_, ih]
      exact Nat.le_trans (hk hphase)
        (Nat.add_le_add_left (Nat.mul_le_mul_right _ (Nat.le_add_right k i)) _)
  rw [← hmore n m hn, ← hmore m n hm, Nat.add_comm]

/-- As many whole intervals as fit, and one more, cover any time. -/
theorem le_div_mul_add (time : Nat) {interval : Nat} (hpos : 0 < interval) :
    time ≤ time / interval * interval + interval := by
  have hdiv := Nat.div_add_mod' time interval
  have hmod := Nat.mod_lt time hpos
  omega

/-! ## Passing time -/

/-- No time passes in an advance by zero. -/
theorem Idle.batchMoves_advance_zero (h : r.Idle) :
    r.batchMoves [.advance 0] = [.queue r.ready] := by
  show .queue r.wake.ready :: r.wake.settleMoves = _
  rw [wake_of_queued h.queued, h.settleMoves_eq]

theorem Idle.run_advance_zero (h : r.Idle) : r.run (.advance 0) = r := by
  rw [run, ← follow_batchMoves, h.batchMoves_advance_zero]
  rfl

/-- The moves of an advance: to the target, and then to rest. -/
theorem Idle.batchMoves_advance (h : r.Idle) (htime : time ≠ 0) :
    r.batchMoves [.advance time] =
      r.advanceToMoves (r.now + time) (time / r.settings.interval + 1) ++
        .queue (r.advanceTo (r.now + time) (time / r.settings.interval + 1)).wake.ready ::
          (r.advanceTo (r.now + time) (time / r.settings.interval + 1)).wake.settleMoves := by
  simp only [batchMoves, commandMoves, performMoves, perform, advance, if_neg htime, h.settle_eq,
    h.settleMoves_eq, List.nil_append, List.foldl_cons, List.foldl_nil, List.append_assoc,
    List.cons_append]

/-- A deadline that comes while time passes is a stop. -/
theorem Idle.batchMoves_advance_of_lt (h : r.Idle) (hphase : r.refreshing = .running)
    (hlt : r.deadline < r.now + time) :
    r.batchMoves [.advance time] = r.arriveMoves r.deadline ++
      (r.arrive r.deadline).batchMoves [.advance (r.now + time - r.deadline)] := by
  have hpos := r.settings.interval_pos
  obtain ⟨-, hbefore, -⟩ := h.of_running hphase
  obtain ⟨hnow, hsettings, -⟩ := h.arrive_deadline hphase
  have hidle : (r.arrive r.deadline).Idle := idle_arrive _ _
  have htarget : r.deadline + (r.now + time - r.deadline) = r.now + time := by omega
  rw [h.batchMoves_advance (by omega), hidle.batchMoves_advance (by omega), hnow, htarget]
  have hrest : (r.arrive r.deadline).advanceToMoves (r.now + time) (time / r.settings.interval) =
      (r.arrive r.deadline).advanceToMoves (r.now + time)
        ((r.now + time - r.deadline) / (r.arrive r.deadline).settings.interval + 1) := by
    refine hidle.advanceToMoves_congr (fun hnext => ?_) fun hnext => ?_
    · have hle := le_div_mul_add time hpos
      rw [h.deadline_arrive hphase hnext, hsettings]
      omega
    · have hle := le_div_mul_add (r.now + time - r.deadline) hpos
      rw [h.deadline_arrive hphase hnext, hsettings, Nat.add_mul, Nat.one_mul]
      omega
  have hstop : r.advanceToMoves (r.now + time) (time / r.settings.interval + 1) =
      r.arriveMoves r.deadline ++ (r.arrive r.deadline).advanceToMoves (r.now + time)
        ((r.now + time - r.deadline) / (r.arrive r.deadline).settings.interval + 1) := by
    rw [advanceToMoves_of_lt hphase hlt, hrest]
  rw [← follow_advanceToMoves, ← follow_advanceToMoves, hstop, follow_append, follow_arriveMoves,
    List.append_assoc]

/-- When no deadline comes before the end, there is no stop. -/
theorem Idle.run_advance_of_le (h : r.Idle)
    (hle : r.refreshing = .running → r.now + time ≤ r.deadline) :
    r.run (.advance time) = r.arrive (r.now + time) ∧
      r.fetchTimes (r.batchMoves [.advance time]) =
        r.fetchTimes (r.arriveMoves (r.now + time)) := by
  by_cases htime : time = 0
  · subst htime
    have hsame : r.arrive (r.now + 0) = r := h.arrive_eq fun hphase => (h.of_running hphase).2.1
    have hwake : ({ r with now := r.now + 0 } : Resolver).wake = r := wake_of_queued h.queued
    rw [h.run_advance_zero, fetchTimes_arriveMoves, h.batchMoves_advance_zero, hsame, hwake,
      h.settleMoves_eq]
    exact ⟨rfl, rfl⟩
  · have harrive : r.batchMoves [.advance time] = .clock (r.now + time) ::
        .queue ({ r with now := r.now + time } : Resolver).wake.ready ::
        .queue ({ r with now := r.now + time } : Resolver).wake.ready ::
          ({ r with now := r.now + time } : Resolver).wake.settleMoves := by
      have hnone : ¬(r.refreshing = .running ∧ r.deadline < r.now + time) := by
        rintro ⟨hphase, hlt⟩
        exact absurd (hle hphase) (Nat.not_le_of_lt hlt)
      rw [h.batchMoves_advance htime, ← follow_advanceToMoves, advanceToMoves_of_not hnone]
      show [.clock (r.now + time), .queue ({ r with now := r.now + time } : Resolver).wake.ready] ++
        .queue ({ r with now := r.now + time } : Resolver).wake.wake.ready ::
          ({ r with now := r.now + time } : Resolver).wake.wake.settleMoves = _
      rw [wake_of_queued (queued_wake _)]
      rfl
    rw [run, ← follow_batchMoves, harrive]
    exact ⟨follow_settleMoves _, rfl⟩

/-- A deadline that comes while time passes, be it at the end, is met by a fetch, and then the rest
of the time passes. -/
theorem Idle.run_advance_stop (h : r.Idle) (hphase : r.refreshing = .running)
    (hle : r.deadline ≤ r.now + time) :
    let stop := r.arrive r.deadline
    r.run (.advance time) = stop.run (.advance (r.now + time - r.deadline)) ∧
      r.fetchTimes (r.batchMoves [.advance time]) =
        r.deadline :: stop.fetchTimes (stop.batchMoves [.advance (r.now + time - r.deadline)]) := by
  intro stop
  obtain ⟨-, -, -, htimes, -⟩ := h.arrive_deadline hphase
  have hidle : stop.Idle := idle_arrive _ _
  rcases Nat.lt_or_eq_of_le hle with hlt | heq
  · have hmoves := h.batchMoves_advance_of_lt hphase hlt
    rw [run, run, ← follow_batchMoves, ← follow_batchMoves, hmoves, follow_append,
      fetchTimes_append, htimes, follow_arriveMoves]
    exact ⟨rfl, rfl⟩
  · have hend (_ : r.refreshing = .running) : r.now + time ≤ r.deadline := Nat.le_of_eq heq.symm
    obtain ⟨hrun, htimes'⟩ := h.run_advance_of_le hend
    rw [hrun, htimes', ← heq, htimes, Nat.sub_self, hidle.run_advance_zero,
      hidle.batchMoves_advance_zero]
    exact ⟨rfl, rfl⟩

/-- Before the deadline time passes and nothing happens. -/
theorem Idle.run_advance_quiet (h : r.Idle)
    (hlt : ¬(r.refreshing = .running ∧ r.deadline ≤ r.now + time)) :
    r.run (.advance time) = { r with now := r.now + time } ∧
      r.fetchTimes (r.batchMoves [.advance time]) = [] := by
  have hbefore (hphase : r.refreshing = .running) : r.now + time < r.deadline :=
    Nat.lt_of_not_le fun hle => hlt ⟨hphase, hle⟩
  obtain ⟨hrun, htimes⟩ := h.run_advance_of_le fun hphase => Nat.le_of_lt (hbefore hphase)
  have hidle : ({ r with now := r.now + time } : Resolver).Idle := h.clock hbefore
  rw [hrun, htimes, h.arrive_eq hbefore, fetchTimes_arriveMoves, wake_of_queued hidle.queued,
    hidle.settleMoves_eq]
  exact ⟨rfl, rfl⟩

/-- It makes no difference whether a time is passed at once or in two parts. -/
theorem Idle.advance_add (h : r.Idle) (a b : Nat) :
    (r.run (.advance a)).run (.advance b) = r.run (.advance (a + b)) := by
  -- the induction is on what is left of the first part after the first stop
  induction a using Nat.strongRecOn generalizing r with
  | ind a ih =>
    by_cases hstop : r.refreshing = .running ∧ r.deadline ≤ r.now + a
    · obtain ⟨hphase, hle⟩ := hstop
      obtain ⟨-, hbefore, -⟩ := h.of_running hphase
      have hrest := ih (r.now + a - r.deadline) (by omega) (r.idle_arrive r.deadline)
      have hsum : r.now + a - r.deadline + b = r.now + (a + b) - r.deadline := by omega
      rw [(h.run_advance_stop hphase hle).1, (h.run_advance_stop hphase (by omega)).1, hrest, hsum]
    · have hidle : ({ r with now := r.now + a } : Resolver).Idle :=
        h.clock fun hphase => Nat.lt_of_not_le fun hle => hstop ⟨hphase, hle⟩
      rw [(h.run_advance_quiet hstop).1]
      by_cases hlater : r.refreshing = .running ∧ r.deadline ≤ r.now + a + b
      · rw [(hidle.run_advance_stop hlater.1 hlater.2).1,
          (h.run_advance_stop hlater.1 (by omega)).1, ← Nat.add_assoc]
        rfl
      · rw [(hidle.run_advance_quiet hlater).1,
          (h.run_advance_quiet (Nat.add_assoc r.now a b ▸ hlater)).1, ← Nat.add_assoc]

end RingRouting.Resolver
