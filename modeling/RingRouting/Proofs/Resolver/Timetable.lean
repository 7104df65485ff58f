import Mathlib
import RingRouting.Proofs.Resolver.Closing
import RingRouting.Proofs.Resolver.Elapse

/-!
# The timetable of full fetches

When an open resolver makes full fetches is told from what is done to it alone: while time passes,
each time an interval has gone by since the last fetch, and else when it is asked to. Two requests
that come together are two fetches, as the first one wakes the loop and one more is kept for it;
further ones are lost in these. Whether a fetch fails does not matter, and neither does the
consumer, until it crashes and the loop that applies is gone: then the first fetch that succeeds is
the last one. Main statements: `Awaits.through`, `start_timetable`.
-/

namespace RingRouting.Resolver

variable {r r' : Resolver} {last k : Nat}

/-! ## Stages -/

namespace Command

/-- The command lets time pass. -/
def isAdvance : Command → Bool
  | advance _ => true
  | _ => false

/-- The command asks for a full fetch. -/
def isCall : Command → Bool
  | resolveNow => true
  | _ => false

end Command

/-- What is done to an idle resolver until it is idle again. -/
inductive Stage where
  /-- Time passes. -/
  | pass (time : Nat)
  /-- Commands are given at one moment. -/
  | give (commands : List Command) (still : ∀ c ∈ commands, c.isAdvance = false)

namespace Stage

def commands : Stage → List Command
  | pass time => [.advance time]
  | give commands _ => commands

/-- How much time passes. -/
def duration : Stage → Nat
  | pass time => time
  | give .. => 0

/-- How many full fetches the resolver makes because it is asked to. -/
def calls : Stage → Nat
  | pass _ => 0
  | give commands _ => min (commands.countP Command.isCall) 2

/-- When the resolver makes full fetches, if it made the last one at `last`: while time passes, one,
two and more intervals after that one, as many as come by the end. -/
def times (interval last now : Nat) : Stage → List Nat
  | pass time => List.range' (last + interval) ((now + time - last) / interval) interval
  | give commands still => List.replicate (give commands still).calls now

end Stage

/-- The resolver after stages one after the other. -/
def through (r : Resolver) (stages : List Stage) : Resolver :=
  stages.foldl (fun r s => r.batch s.commands) r

/-- The moves of stages one after the other. -/
def throughMoves : Resolver → List Stage → List Move
  | _, [] => []
  | r, s :: rest => r.batchMoves s.commands ++ (r.batch s.commands).throughMoves rest

/-- These moves lead through the stages. -/
theorem follow_throughMoves (r : Resolver) (stages : List Stage) :
    r.follow (r.throughMoves stages) = r.through stages := by
  induction stages generalizing r with
  | nil => rfl
  | cons s rest ih =>
    rw [throughMoves, follow_append, follow_batchMoves]
    exact ih _

theorem Idle.through (h : r.Idle) (stages : List Stage) : (r.through stages).Idle := by
  induction stages generalizing r with
  | nil => exact h
  | cons s rest ih => exact ih (h.batch s.commands)

/-- When full fetches happen in stages one after the other, if the last one before them was at
`last`. -/
def timetable (interval : Nat) : Nat → Nat → List Stage → List Nat
  | _, _, [] => []
  | last, now, s :: rest =>
    let times := s.times interval last now
    times ++ timetable interval (times.getLastD last) (now + s.duration) rest

/-! ## One stage -/

/-- The resolver is idle and waits for its next full fetch, an interval after the last one. -/
structure Awaits (last : Nat) (r : Resolver) : Prop extends r.Idle where
  refreshing_eq : r.refreshing = .running
  held_eq : r.held = true
  deadline_eq : r.deadline = last + r.settings.interval

/-- A resolver that is open now was open before. -/
theorem closed_of_follow {moves : List Move} (h : (r.follow moves).closed = false) :
    r.closed = false := by
  cases hclosed : r.closed with
  | false => rfl
  | true => exact absurd (final_follow hclosed moves).1.closed (h ▸ Bool.false_ne_true)

/-- What a stage makes of a resolver that waits. It goes on as planned, or the loop that refreshes
ends on the way, as the other one is gone. -/
inductive Kept (interval last now : Nat) (s : Stage) (times : List Nat) (r' : Resolver) : Prop
  | going (hawaits : r'.Awaits (times.getLastD last)) (hnow : r'.now = now + s.duration)
      (hinterval : r'.settings.interval = interval) (htimes : times = s.times interval last now)
  | ended (hend : r'.refreshing = .ended) (hgone : r'.applying = .ended)
      (htimes : times <+: s.times interval last now)

namespace Stage

variable {interval now time : Nat}

/-- The first deadline comes, and the rest of the time is planned from there. -/
theorem times_pass_of_le (hpos : 0 < interval) (hle : last + interval ≤ now + time) :
    (pass time).times interval last now = (last + interval) ::
      (pass (now + time - (last + interval))).times interval (last + interval)
        (last + interval) := by
  have hcount : (now + time - last) / interval = (now + time - last - interval) / interval + 1 :=
    Nat.div_eq_sub_div hpos (by omega)
  have hrest : last + interval + (now + time - (last + interval)) - (last + interval) =
      now + time - last - interval := by omega
  rw [times, times, hcount, hrest, List.range'_succ]

/-- No fetch is due in a time that ends before the next interval does. -/
theorem times_pass_of_lt (hpos : 0 < interval) (hlt : now + time < last + interval) :
    (pass time).times interval last now = [] := by
  rw [times, Nat.div_eq_of_lt (by omega)]
  rfl

end Stage

/-- While time passes, the resolver keeps to the timetable. -/
theorem Awaits.pass (h : r.Awaits last) (time : Nat) :
    Kept r.settings.interval last r.now (.pass time) (r.fetchTimes (r.batchMoves [.advance time]))
      (r.run (.advance time)) := by
  -- the induction is on what is left of the time after the first deadline
  induction time using Nat.strongRecOn generalizing r last with
  | ind time ih =>
    have hdeadline := h.deadline_eq
    by_cases hstop : r.deadline ≤ r.now + time
    · obtain ⟨-, hbefore, -⟩ := h.of_running h.refreshing_eq
      obtain ⟨hnow, hsettings, hheld, -, hcase⟩ := h.arrive_deadline h.refreshing_eq
      obtain ⟨hrun, htimes⟩ := h.run_advance_stop h.refreshing_eq hstop
      have hplan := Stage.times_pass_of_le r.settings.interval_pos (hdeadline ▸ hstop)
      rw [← hdeadline] at hplan
      rw [hrun, htimes]
      rcases hcase with ⟨hrunning, hnext⟩ | ⟨hend, hgone⟩
      · have hstays : (r.arrive r.deadline).Awaits r.deadline :=
          ⟨idle_arrive _ _, hrunning, hheld.trans h.held_eq, by rw [hnext, hsettings]⟩
        have hrest := ih (r.now + time - r.deadline) (by omega) hstays
        rw [hsettings, hnow] at hrest
        cases hrest with
        | going hawaits hnow' hinterval htimes' =>
          refine .going ?_ (hnow'.trans ?_) hinterval ?_
          · rw [List.getLastD_cons]
            exact hawaits
          · show r.deadline + (r.now + time - r.deadline) = r.now + time
            omega
          · rw [hplan, htimes']
        | ended hend hgone htimes' =>
          refine .ended hend hgone ?_
          rw [hplan]
          exact (List.prefix_cons_inj _).mpr htimes'
      · refine .ended ?_ ?_ ?_
        · rw [run, ← follow_batchMoves]
          exact refreshing_follow_of_ended hend _
        · rw [run, ← follow_batchMoves]
          exact applying_follow_of_ended hgone _
        · rw [hplan, fetchTimes_of_ended hend]
          exact (List.prefix_cons_inj _).mpr List.nil_prefix
    · have hquiet : ¬(r.refreshing = .running ∧ r.deadline ≤ r.now + time) :=
        fun hdue => hstop hdue.2
      obtain ⟨hrun, htimes⟩ := h.run_advance_quiet hquiet
      have hidle : (r.run (.advance time)).Idle := h.toIdle.batch _
      rw [hrun] at hidle
      rw [hrun, htimes]
      refine .going ⟨hidle, h.refreshing_eq, h.held_eq, hdeadline⟩ rfl rfl ?_
      rw [Stage.times_pass_of_lt r.settings.interval_pos (by omega)]

/-! ## Commands -/

/-- What is left of `k` requests for the loop that refreshes, as other commands are given. -/
structure Asked (r : Resolver) (k : Nat) (r' : Resolver) : Prop where
  now_eq : r'.now = r.now
  settings_eq : r'.settings = r.settings
  deadline_eq : r'.deadline = r.deadline
  refreshing_eq : r'.refreshing = .running
  held_eq : r'.held = true
  requests_eq : r'.requests = min k 2

/-- To wake the loops asks for nothing more. -/
theorem Asked.wake (h : Asked r k r') : Asked r k r'.wake :=
  { h with }

/-- A command that is a call asks once more, and any other does not. -/
theorem Asked.perform (h : Asked r k r') {c : Command} (hstill : c.isAdvance = false)
    (hopen : (r'.perform c).closed = false) :
    Asked r (k + if c.isCall then 1 else 0) (r'.perform c) := by
  cases c with
  | advance => cases hstill
  | register | deregister | expire | setOutage =>
    exact { h with }
  | push | endWatch =>
    show Asked r k (r'.perform _)
    simp only [Resolver.perform]
    split <;> exact { h with }
  | resolveNow =>
    have hrequests := h.requests_eq
    simp only [Resolver.perform, if_pos h.held_eq, if_pos h.refreshing_eq]
    refine { h with requests_eq := ?_ }
    show min (r'.requests + 1) 2 = min (k + 1) 2
    omega
  | close => simp [Resolver.perform, h.held_eq] at hopen
  | release => cases hopen

theorem fetchTimes_performMoves (r : Resolver) {c : Command} (hstill : c.isAdvance = false) :
    r.fetchTimes (r.performMoves c) = [] := by
  cases c with
  | advance => cases hstill
  | register | deregister | expire | push | endWatch | setOutage | resolveNow | close | release =>
    rfl

/-- While commands are given no fetch is made. -/
theorem Asked.commands (h : Asked r k r') {commands : List Command}
    (hstill : ∀ c ∈ commands, c.isAdvance = false)
    (hopen : (r'.follow (r'.commandMoves commands)).closed = false) :
    Asked r (k + commands.countP Command.isCall) (r'.follow (r'.commandMoves commands)) ∧
      r'.fetchTimes (r'.commandMoves commands) = [] := by
  induction commands generalizing r' k with
  | nil => exact ⟨h, rfl⟩
  | cons c rest ih =>
    obtain ⟨hc, hrest⟩ := List.forall_mem_cons.mp hstill
    have hmoves : r'.follow (r'.commandMoves (c :: rest)) =
        (r'.perform c).wake.follow ((r'.perform c).wake.commandMoves rest) := by
      rw [commandMoves, follow_append, follow_performMoves]
      rfl
    rw [hmoves] at hopen ⊢
    have hclosed : (r'.perform c).wake.closed = false := closed_of_follow hopen
    have hperform := (h.perform hc hclosed).wake
    obtain ⟨hasked, htimes⟩ := ih hperform hrest hopen
    refine ⟨?_, ?_⟩
    · rw [List.countP_cons, Nat.add_comm (List.countP _ rest), ← Nat.add_assoc]
      exact hasked
    · rw [commandMoves, fetchTimes_append, fetchTimes_performMoves _ hc, follow_performMoves]
      exact htimes

/-- Every loop that can go on stays queued. -/
theorem Queued.commands (h : r.Queued) (commands : List Command) :
    (r.follow (r.commandMoves commands)).Queued := by
  rw [follow_commandMoves]
  rcases List.eq_nil_or_concat commands with rfl | ⟨first, c, rfl⟩
  · exact h
  · rw [List.concat_eq_append, List.foldl_append]
    exact queued_wake _

/-- The last of equal times is that time, if there is any. -/
theorem getLastD_replicate {α : Type} (n : Nat) (a b : α) :
    (List.replicate n a).getLastD b = if n = 0 then b else a := by
  cases n with
  | zero => rfl
  | succ n => rw [List.replicate_succ', List.getLastD_concat, if_neg (Nat.succ_ne_zero n)]

/-- A batch of commands keeps to the timetable. -/
theorem Awaits.give (h : r.Awaits last) {commands : List Command}
    (hstill : ∀ c ∈ commands, c.isAdvance = false) (hopen : (r.batch commands).closed = false) :
    Kept r.settings.interval last r.now (.give commands hstill)
      (r.fetchTimes (r.batchMoves commands))
      (r.batch commands) := by
  obtain ⟨-, hbefore, hrequests⟩ := h.of_running h.refreshing_eq
  have hasked : Asked r 0 r := ⟨rfl, rfl, rfl, h.refreshing_eq, h.held_eq, hrequests⟩
  rw [batch, ← follow_commandMoves] at hopen ⊢
  rw [batchMoves, ← follow_commandMoves, fetchTimes_append]
  have hqueued := h.queued.commands commands
  rw [← follow_settleMoves] at hopen
  obtain ⟨hgiven, hnone⟩ := hasked.commands hstill (closed_of_follow hopen)
  rw [hnone, List.nil_append]
  rw [Nat.zero_add] at hgiven
  -- from here on the commands have been given, and the loops take turns
  generalize r.follow (r.commandMoves commands) = g at *
  have howed : g.owed = min (commands.countP Command.isCall) 2 := by
    rw [owed_of_lt_deadline hgiven.refreshing_eq
      (by rw [hgiven.now_eq, hgiven.deadline_eq]; exact hbefore), hgiven.requests_eq]
  obtain ⟨k, htimes, hprogress, hcase⟩ := exists_progress_settle hqueued (closed_of_follow hopen)
    (hgiven.refreshing_eq ▸ RefreshPhase.noConfusion)
    fun _ => hgiven.refreshing_eq ▸ RefreshPhase.noConfusion
  rw [htimes, hgiven.now_eq]
  rw [howed] at hcase
  rcases hcase with ⟨hrunning, rfl⟩ | ⟨hend, hgone, -, hle⟩
  · have hdueAt := (hprogress.going (hrunning ▸ RefreshPhase.noConfusion)).2
    rw [dueAt_of_running hrunning, dueAt_of_running hgiven.refreshing_eq, hgiven.deadline_eq,
      hgiven.now_eq, hgiven.settings_eq, h.deadline_eq] at hdueAt
    refine .going ⟨idle_settle hqueued, hrunning, hprogress.held_eq.trans hgiven.held_eq, ?_⟩
      (hprogress.now_eq.trans hgiven.now_eq) ?_ rfl
    · rw [getLastD_replicate, hdueAt, hprogress.settings_eq, hgiven.settings_eq]
      split <;> rfl
    · rw [hprogress.settings_eq, hgiven.settings_eq]
  · have hsplit : min (commands.countP Command.isCall) 2 =
        k + (min (commands.countP Command.isCall) 2 - k) := (Nat.add_sub_cancel' hle).symm
    refine .ended hend hgone ?_
    rw [Stage.times, Stage.calls, hsplit, ← List.replicate_append_replicate]
    exact List.prefix_append _ _

/-! ## All stages -/

/-- So does every stage. -/
theorem Awaits.stage (h : r.Awaits last) (s : Stage) (hopen : (r.batch s.commands).closed = false) :
    Kept r.settings.interval last r.now s (r.fetchTimes (r.batchMoves s.commands))
      (r.batch s.commands) := by
  cases s with
  | pass time => exact h.pass time
  | give commands hstill => exact h.give hstill hopen

/-- An open resolver keeps to its timetable, unless the loop that applies is gone; then it makes a
first part of the fetches. -/
theorem Awaits.through (h : r.Awaits last) (stages : List Stage)
    (hopen : (r.through stages).closed = false) :
    (r.through stages).refreshing = .running ∧
        r.fetchTimes (r.throughMoves stages) = timetable r.settings.interval last r.now stages ∨
      (r.through stages).refreshing = .ended ∧ (r.through stages).applying = .ended ∧
        r.fetchTimes (r.throughMoves stages) <+:
          timetable r.settings.interval last r.now stages := by
  induction stages generalizing r last with
  | nil => exact .inl ⟨h.refreshing_eq, rfl⟩
  | cons s rest ih =>
    have hthrough : r.through (s :: rest) = (r.batch s.commands).through rest := rfl
    rw [hthrough, ← follow_throughMoves] at hopen
    have hstage := h.stage s (closed_of_follow hopen)
    rw [follow_throughMoves] at hopen
    rw [hthrough, throughMoves, fetchTimes_append, follow_batchMoves, timetable]
    generalize r.fetchTimes (r.batchMoves s.commands) = times at *
    cases hstage with
    | going hawaits hnow hinterval htimes =>
      have hrest := ih hawaits hopen
      rw [hnow, hinterval] at hrest
      rw [← htimes]
      exact hrest.imp (fun ⟨hrunning, heq⟩ => ⟨hrunning, by rw [heq]⟩)
        fun ⟨hend, hgone, hle⟩ => ⟨hend, hgone, (List.prefix_append_right_inj _).mpr hle⟩
    | ended hend hgone htimes =>
      rw [fetchTimes_of_ended hend, List.append_nil, ← follow_throughMoves]
      exact .inr ⟨refreshing_follow_of_ended hend _, applying_follow_of_ended hgone _,
        htimes.trans (List.prefix_append _ _)⟩

/-! ## Counting the fetches -/

/-- The last of regular times is the first and as many intervals. -/
theorem getLastD_range' (first n step : Nat) :
    (List.range' (first + step) n step).getLastD first = first + n * step := by
  cases n with
  | zero => simp
  | succ n =>
    rw [List.range'_concat, List.getLastD_concat, Nat.add_mul, Nat.mul_comm]
    omega

/-- How much time there is between one demand and the next, with the time since the last one. -/
def gaps : Nat → List Stage → List Nat
  | elapsed, [] => [elapsed]
  | elapsed, s :: rest =>
    if s.calls = 0 then gaps (elapsed + s.duration) rest else elapsed :: gaps 0 rest

/-- The fetches are those on demand, and in each gap as many as whole intervals fit into it. -/
theorem length_timetable (interval demand elapsed : Nat) (stages : List Stage) :
    (timetable interval (demand + elapsed / interval * interval) (demand + elapsed) stages).length +
        elapsed / interval =
      (stages.map Stage.calls).sum + ((gaps elapsed stages).map (· / interval)).sum := by
  induction stages generalizing demand elapsed with
  | nil => simp [timetable, gaps]
  | cons s rest ih =>
    rw [timetable, List.length_append, gaps, List.map_cons, List.sum_cons]
    cases s with
    | pass time =>
      have hcount :
          (demand + elapsed + time - (demand + elapsed / interval * interval)) / interval =
          (elapsed + time) / interval - elapsed / interval := by
        rw [Nat.add_assoc, Nat.add_sub_add_left, Nat.mul_comm, Nat.sub_mul_div]
      have hle : elapsed / interval ≤ (elapsed + time) / interval :=
        Nat.div_le_div_right (Nat.le_add_right _ _)
      have hlast : demand + elapsed / interval * interval +
          ((elapsed + time) / interval - elapsed / interval) * interval =
            demand + (elapsed + time) / interval * interval := by
        rw [Nat.add_assoc, ← Nat.add_mul, Nat.add_sub_cancel' hle]
      have hrest := ih demand (elapsed + time)
      rw [← Nat.add_assoc] at hrest
      rw [Stage.times, hcount, getLastD_range', hlast, List.length_range']
      simp only [Stage.calls, Stage.duration, if_true]
      omega
    | give commands hstill =>
      simp only [Stage.times, Stage.duration, List.length_replicate, getLastD_replicate,
        Nat.add_zero]
      generalize (Stage.give commands hstill).calls = n
      split
      next hn =>
        have hrest := ih demand elapsed
        omega
      next hn =>
        have hrest := ih (demand + elapsed) 0
        rw [Nat.zero_div, Nat.zero_mul, Nat.add_zero, Nat.add_zero] at hrest
        rw [List.map_cons, List.sum_cons]
        omega

/-! ## Splitting a time -/

theorem getLastD_append {α : Type} (l l' : List α) (a : α) :
    (l ++ l').getLastD a = l'.getLastD (l.getLastD a) := by
  rw [List.getLastD_eq_getLast?, List.getLastD_eq_getLast?, List.getLastD_eq_getLast?,
    List.getLast?_append, Option.getD_or]

theorem through_append (r : Resolver) (stages stages' : List Stage) :
    r.through (stages ++ stages') = (r.through stages).through stages' :=
  List.foldl_append

/-- It makes no difference for an idle resolver whether a time is passed at once or in two parts. -/
theorem Idle.through_split (h : r.Idle) (earlier later : List Stage) (a b : Nat) :
    r.through (earlier ++ .pass a :: .pass b :: later) =
      r.through (earlier ++ .pass (a + b) :: later) := by
  rw [through_append, through_append]
  exact congrArg (·.through later) ((h.through earlier).advance_add a b)

/-- Time that passes in two parts is time that passes at once. -/
theorem timetable_split (interval last now : Nat) (earlier later : List Stage) (a b : Nat) :
    timetable interval last now (earlier ++ .pass a :: .pass b :: later) =
      timetable interval last now (earlier ++ .pass (a + b) :: later) := by
  induction earlier generalizing last now with
  | cons s earlier ih => rw [List.cons_append, timetable, ih, List.cons_append, timetable]
  | nil =>
    have hle : (now + a - last) / interval ≤ (now + (a + b) - last) / interval :=
      Nat.div_le_div_right (by omega)
    have hcount : (now + a + b - (last + (now + a - last) / interval * interval)) / interval =
        (now + (a + b) - last) / interval - (now + a - last) / interval := by
      rw [← Nat.sub_sub, Nat.mul_comm, Nat.sub_mul_div, Nat.add_assoc]
    -- the last fetch of the first part is where the second part is planned from
    have htimes :
        (Stage.pass (a + b)).times interval last now = (Stage.pass a).times interval last now ++
        (Stage.pass b).times interval (((Stage.pass a).times interval last now).getLastD last)
        (now + a) := by
      rw [Stage.times, Stage.times, getLastD_range', Stage.times, hcount, Nat.add_right_comm last,
        Nat.mul_comm _ interval, List.range'_append, Nat.add_sub_cancel' hle]
    simp only [List.nil_append, timetable, htimes, getLastD_append, Stage.duration,
      List.append_assoc, Nat.add_assoc]

/-! ## From the start -/

/-- How a resolver starts. -/
theorem fields_of_ofFeed {settings : Settings} {feed : Feed} {registry : Registry}
    {outage : Option String} (hstart : ofFeed settings feed registry outage = .ok r) :
    r.settings = settings ∧ r.now = 0 ∧ r.refreshing = .starting ∧ r.requests = 0 ∧
      r.closed = false ∧ r.held = true := by
  obtain ⟨nodes, rfl⟩ := exists_of_ofFeed hstart
  exact ⟨rfl, rfl, rfl, rfl, rfl, rfl⟩

/-- A resolver that was started has made its first fetch at time zero, and waits for the next
one. -/
theorem awaits_of_ofFeed {settings : Settings} {feed : Feed} {registry : Registry}
    {outage : Option String} (hstart : ofFeed settings feed registry outage = .ok r) :
    r.wake.settle.Awaits 0 ∧ r.wake.settle.now = 0 ∧ r.wake.settle.settings = settings ∧
      r.wake.fetchTimes r.wake.settleMoves = [] := by
  obtain ⟨hsettings, hnow, hphase, hrequests, hopen, hheld⟩ := fields_of_ofFeed hstart
  have hdueAt : r.wake.dueAt = r.settings.interval := by
    show (if r.refreshing = .starting then r.now + r.settings.interval else r.deadline) = _
    rw [if_pos hphase, hnow, Nat.zero_add]
  have howed : r.wake.owed = 0 := by
    have hpos := r.settings.interval_pos
    have hnow' : r.wake.now = 0 := hnow
    rw [owed, hdueAt, hnow', if_neg (Nat.not_le_of_lt hpos)]
    exact hrequests
  obtain ⟨k, htimes, hprogress, hcase⟩ := exists_progress_settle r.queued_wake hopen
    (show r.refreshing ≠ .ended from hphase ▸ RefreshPhase.noConfusion)
    (show ∀ nodes, r.refreshing ≠ .sending nodes from fun _ => hphase ▸ RefreshPhase.noConfusion)
  obtain ⟨hrunning, rfl⟩ : r.wake.settle.refreshing = .running ∧ k = 0 := by
    rcases hcase with ⟨hrunning, hk⟩ | ⟨-, -, hk, hle⟩
    · exact ⟨hrunning, hk.trans howed⟩
    · omega
  have hdeadline := (hprogress.going (hrunning ▸ RefreshPhase.noConfusion)).2
  rw [if_pos rfl, dueAt_of_running hrunning, hdueAt] at hdeadline
  have hsame : r.wake.settle.settings = r.settings := hprogress.settings_eq
  refine ⟨⟨idle_settle r.queued_wake, hrunning, hprogress.held_eq.trans hheld, ?_⟩,
    hprogress.now_eq.trans hnow, hsame.trans hsettings, htimes⟩
  rw [hdeadline, hsame, Nat.zero_add]

/-- The moves of a new resolver until it is idle, and of stages after that. -/
def runMoves (r : Resolver) (stages : List Stage) : List Move :=
  .queue r.wake.ready :: (r.wake.settleMoves ++ r.wake.settle.throughMoves stages)

/-- A resolver starts, comes to rest and goes through the stages. -/
theorem follow_runMoves (r : Resolver) (stages : List Stage) :
    r.follow (r.runMoves stages) = r.wake.settle.through stages := by
  show r.wake.follow _ = _
  rw [follow_append, follow_settleMoves, follow_throughMoves]

/-- No fetch is made before it first comes to rest. -/
theorem fetchTimes_runMoves {settings : Settings} {feed : Feed} {registry : Registry}
    {outage : Option String}
    (hstart : ofFeed settings feed registry outage = .ok r) (stages : List Stage) :
    r.fetchTimes (r.runMoves stages) =
      r.wake.settle.fetchTimes (r.wake.settle.throughMoves stages) := by
  show r.wake.fetchTimes _ = _
  rw [fetchTimes_append, (awaits_of_ofFeed hstart).2.2.2, follow_settleMoves]
  rfl

/-- An open resolver keeps to its timetable from the start on, unless the loop that applies is gone;
then it makes a first part of the fetches. -/
theorem timetable_of_runMoves {settings : Settings} {feed : Feed} {registry : Registry}
    {outage : Option String}
    (hstart : ofFeed settings feed registry outage = .ok r) {stages : List Stage}
    (hopen : (r.follow (r.runMoves stages)).closed = false) :
    (r.follow (r.runMoves stages)).refreshing = .running ∧
        r.fetchTimes (r.runMoves stages) = timetable settings.interval 0 0 stages ∨
      (r.follow (r.runMoves stages)).refreshing = .ended ∧
      (r.follow (r.runMoves stages)).applying = .ended ∧
        r.fetchTimes (r.runMoves stages) <+: timetable settings.interval 0 0 stages := by
  obtain ⟨hawaits, hnow, hsettings, -⟩ := awaits_of_ofFeed hstart
  rw [follow_runMoves] at hopen
  have hthrough := hawaits.through stages hopen
  rw [hnow, hsettings] at hthrough
  rw [follow_runMoves, fetchTimes_runMoves hstart]
  exact hthrough

/-- As long as a resolver is open and the loop that applies is there, full fetches happen on demand
and each time an interval has gone by since the last one, be it at the very end, and at no other
time, whether they fail or not. So there is one at the start, those on demand, and in each gap
between demands as many as whole intervals fit into it. A time that is passed in two parts is passed
like one. -/
theorem start_timetable {target : Target} {protocol : Protocol} {tags : List String}
    {interval : Nat}
    {answer : Consumer} {source : WatchSource} {registry : Registry} {outage : Option String}
    (hstart : start target protocol tags interval answer source registry outage = .ok r)
    (stages : List Stage) (hopen : (r.through stages).closed = false)
    (halive : (r.through stages).applying ≠ .ended) :
    r.fetchTimes (r.throughMoves stages) = timetable interval 0 0 stages ∧
      (r.through stages).fetches =
        1 + ((stages.map Stage.calls).sum + ((gaps 0 stages).map (· / interval)).sum) ∧
      ∀ earlier later a b, stages = earlier ++ .pass (a + b) :: later →
        let split := earlier ++ .pass a :: .pass b :: later
        r.through split = r.through stages ∧
          r.fetchTimes (r.throughMoves split) = timetable interval 0 0 stages := by
  obtain ⟨settings, feed, registry, r₀, -, rfl, -, -, hr₀, rfl⟩ := exists_ofFeed_of_start hstart
  have hidle : r₀.wake.settle.Idle := idle_settle r₀.queued_wake
  have hkept (stages : List Stage) (hopen : (r₀.wake.settle.through stages).closed = false)
      (halive : (r₀.wake.settle.through stages).applying ≠ .ended) :
      r₀.wake.settle.fetchTimes (r₀.wake.settle.throughMoves stages) =
        timetable settings.interval 0 0 stages := by
    rw [← follow_runMoves] at hopen halive
    rw [← fetchTimes_runMoves hr₀]
    exact (timetable_of_runMoves hr₀ hopen).elim (·.2) fun ⟨_, hgone, _⟩ => absurd hgone halive
  refine ⟨hkept stages hopen halive, ?_, ?_⟩
  · have hlength := length_timetable settings.interval 0 0 stages
    rw [Nat.zero_div, Nat.zero_mul, Nat.add_zero, Nat.add_zero] at hlength
    rw [← follow_runMoves, fetches_follow_eq hr₀, fetchTimes_runMoves hr₀,
      hkept stages hopen halive, hlength]
  · rintro earlier later a b rfl split
    have hsplit : r₀.wake.settle.through split = _ := hidle.through_split earlier later a b
    rw [hsplit, ← timetable_split]
    exact ⟨rfl, hkept split (hsplit ▸ hopen) (hsplit ▸ halive)⟩

/-- Two deadlines come in one stage and one at the very end of another, and three requests come
together during an outage. -/
theorem start_timetable_outage :
    let stages : List Stage :=
      [.pass 2500, .give [.setOutage (some "down"), .resolveNow, .resolveNow, .resolveNow]
        (by decide), .pass (400 + 600), .give [.setOutage none, .resolveNow] (by decide), .pass 999]
    ∃ r, start ⟨"svc", "", "s"⟩ .grpc [] 1000 (fun _ _ => .accepted) .registry {} none = .ok r ∧
      (r.through stages).closed = false ∧ (r.through stages).applying ≠ .ended ∧
      r.fetchTimes (r.throughMoves stages) = [1000, 2000, 2500, 2500, 3500, 3500] ∧
      (r.through stages).fetches = 7 := by
  intro stages
  obtain ⟨r, hstart, hopen, hrunning⟩ : ∃ r,
      start ⟨"svc", "", "s"⟩ .grpc [] 1000 (fun _ _ => .accepted) .registry {} none = .ok r ∧
        (r.through stages).closed = false ∧ (r.through stages).applying = .running := by
    refine ⟨_, rfl, ?_, ?_⟩ <;> cbv
  have halive : (r.through stages).applying ≠ .ended := hrunning ▸ Phase.noConfusion
  obtain ⟨htimes, hfetches, -⟩ := start_timetable hstart stages hopen halive
  exact ⟨r, hstart, hopen, halive, htimes.trans (by decide), hfetches.trans (by decide)⟩

/-- Two requests that come together are not one. -/
theorem batch_two_calls_ne_one :
    ∃ r, start ⟨"svc", "", "orders"⟩ .grpc [] 60000 (fun _ _ => .accepted) .registry {} none =
      .ok r ∧
      let r' := r.batch [.resolveNow, .resolveNow]
      r'.closed = false ∧ r'.applying = .running ∧
      (r.batch [.resolveNow]).fetches = 2 ∧ r'.fetches = 3 := by
  refine ⟨_, rfl, ?_⟩
  dsimp only
  refine ⟨?_, ?_, ?_, ?_⟩ <;> cbv

end RingRouting.Resolver
