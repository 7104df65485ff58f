import RingRouting.Proofs.Resolver.Schedule

/-!
# Rest

A resolver is at rest when neither loop can go on. A loop that can go on is queued by `wake`, and
the loops take turns until none is queued, so every batch of commands ends at rest. Main statements:
`atRest_batch` and `Idle.batch`.
-/

namespace RingRouting.Resolver

variable {r : Resolver}

/-- Neither loop can go on. -/
def AtRest (r : Resolver) : Prop :=
  ∀ l, r.step? l = none

/-- Every loop that can go on is queued. -/
def Queued (r : Resolver) : Prop :=
  ∀ l, (r.step? l).isSome → l ∈ r.ready

/-- How far a loop has come. -/
def phase (r : Resolver) : Loop → Phase
  | .apply => r.applying
  | .refresh => r.refreshing.phase

/-! ## What makes a loop go on -/

/-- When the loop that applies can go on. -/
theorem isSome_applyStep? (r : Resolver) : r.applyStep?.isSome =
    match r.applying with
    | .starting => true
    | .running =>
      r.closed || !r.syncs.isEmpty || r.watchOpen && (r.receive?.isSome || r.feedEnded)
    | .ended => false := by
  unfold applyStep?
  cases r.applying with
  | starting | ended => rfl
  | running =>
    cases r.closed with
    | true => rfl
    | false =>
      cases r.syncs with
      | cons nodes rest => rfl
      | nil =>
        cases r.watchOpen with
        | false => rfl
        | true =>
          cases r.receive? with
          | some taken => rfl
          | none => cases r.feedEnded <;> rfl

/-- When the loop that refreshes can go on. -/
theorem isSome_refreshStep? (r : Resolver) : r.refreshStep?.isSome =
    match r.refreshing with
    | .starting => true
    | .running => r.closed || decide (r.deadline ≤ r.now) || decide (0 < r.requests)
    | .sending _ => decide (r.applying = .ended) || decide (r.syncs.length < syncCapacity)
    | .ended => false := by
  unfold refreshStep?
  cases r.refreshing with
  | starting | ended => rfl
  | sending nodes =>
    by_cases hgone : r.applying = .ended <;> by_cases hroom : r.syncs.length < syncCapacity <;>
      simp [hgone, hroom]
  | running =>
    cases r.closed with
    | true => rfl
    | false =>
      by_cases hdue : r.deadline ≤ r.now <;> by_cases hrequest : 0 < r.requests <;>
      simp [hdue, hrequest]

/-- What is queued does not matter for what can go on. -/
theorem isSome_step?_queue (r : Resolver) (ready : List Loop) (l : Loop) :
    (({ r with ready } : Resolver).step? l).isSome = (r.step? l).isSome := by
  cases l with
  | apply =>
    have hreceive : ({ r with ready } : Resolver).receive?.isSome = r.receive?.isSome := by
      unfold receive?
      cases r.feed <;> simp
    simp only [step?, isSome_applyStep?, hreceive, feedEnded]
  | refresh => simp only [step?, isSome_refreshStep?]

/-- A loop that applies and is at rest has begun, and no full node list waits for it. -/
theorem running_of_rest (halive : r.applying ≠ .ended) (hopen : r.closed = false)
    (hrest : r.step? .apply = none) : r.applying = .running ∧ r.syncs = [] := by
  have hstep := r.isSome_applyStep?
  rw [show r.applyStep? = none from hrest, hopen] at hstep
  cases hphase : r.applying with
  | starting => simp [hphase] at hstep
  | ended => exact absurd hphase halive
  | running =>
    cases hsyncs : r.syncs with
    | nil => exact ⟨rfl, rfl⟩
    | cons nodes rest => simp [hphase, hsyncs] at hstep

/-- The loop that refreshes waits for room, which the loop that applies may still make. -/
def Stuck (r : Resolver) : Prop :=
  (∃ nodes, r.refreshing = .sending nodes) ∧ r.applying ≠ .ended ∧ syncCapacity ≤ r.syncs.length

/-- Once the resolver is closed a loop can go on for as long as it has not ended, unless it waits
for room. -/
theorem step?_eq_none_iff_of_closed (hclosed : r.closed = true) (l : Loop) :
    r.step? l = none ↔ r.phase l = .ended ∨ l = .refresh ∧ r.Stuck := by
  rw [← Option.isNone_iff_eq_none, ← Option.not_isSome]
  cases l with
  | apply =>
    rw [step?, isSome_applyStep?, hclosed, phase]
    cases r.applying <;> simp
  | refresh =>
    rw [step?, isSome_refreshStep?, hclosed, phase, Stuck]
    cases r.refreshing <;> simp [RefreshPhase.phase]

/-- When both loops are at rest, no full node list waits to be handed over. -/
theorem AtRest.not_sending (h : r.AtRest) (nodes : List Node) : r.refreshing ≠ .sending nodes := by
  intro hphase
  have hrefresh := r.isSome_refreshStep?
  rw [show r.refreshStep? = none from h .refresh, hphase] at hrefresh
  have happly := r.isSome_applyStep?
  rw [show r.applyStep? = none from h .apply] at happly
  -- a loop that applies and is at rest has made room
  cases happlying : r.applying with
  | starting => simp [happlying] at happly
  | ended => simp [happlying] at hrefresh
  | running =>
    have hsyncs : r.syncs = [] := by
      cases hsyncs : r.syncs with
      | nil => rfl
      | cons => simp [happlying, hsyncs] at happly
    simp [hsyncs, syncCapacity] at hrefresh

/-! ## Turns end at rest -/

/-- To wake a resolver queues every loop that can go on. -/
theorem queued_wake (r : Resolver) : r.wake.Queued := by
  intro l hl
  rw [wake, isSome_step?_queue] at hl
  by_cases hqueued : l ∈ r.ready
  · exact List.mem_append_left _ hqueued
  · refine List.mem_append_right _ (List.mem_filter.mpr ⟨?_, by simp [hqueued, hl]⟩)
    cases l <;> simp

/-- A resolver that settles comes to rest. -/
theorem atRest_settle (h : r.Queued) : r.settle.AtRest := by
  fun_induction settle r with
  | case1 r hready =>
    intro l
    refine Option.not_isSome_iff_eq_none.mp fun hl => ?_
    have hmem := h l hl
    rw [hready] at hmem
    cases hmem
  | case2 r l rest hready next hstep ih => exact ih (queued_wake _)
  | case3 r l rest hready hstep ih =>
    refine ih fun l' hl' => ?_
    rw [isSome_step?_queue] at hl'
    have hmem := h l' hl'
    rw [hready, List.mem_cons] at hmem
    -- the loop at the head of the queue is the one that cannot go on
    exact hmem.resolve_left fun heq => by simp [heq, hstep] at hl'

/-- After a batch of commands neither loop can go on. -/
theorem atRest_batch (r : Resolver) {commands : List Command} (h : commands ≠ []) :
    (r.batch commands).AtRest := by
  obtain ⟨first, last, rfl⟩ := (List.eq_nil_or_concat commands).resolve_left h
  refine atRest_settle ?_
  rw [List.concat_eq_append, List.foldl_append, List.foldl_cons, List.foldl_nil]
  exact queued_wake _

/-! ## Idle resolvers -/

/-- Neither loop can go on, and none is queued. -/
structure Idle (r : Resolver) : Prop where
  atRest : r.AtRest
  ready_eq : r.ready = []

theorem ready_settle (r : Resolver) : r.settle.ready = [] := by
  fun_induction settle r with
  | case1 r hready => exact hready
  | case2 r l rest hready next hstep ih | case3 r l rest hready hstep ih => exact ih

theorem idle_settle (h : r.Queued) : r.settle.Idle :=
  ⟨atRest_settle h, r.ready_settle⟩

/-- Nothing more is queued by doing it again. -/
theorem wake_of_queued (h : r.Queued) : r.wake = r := by
  have hnone : ([.apply, .refresh] : List Loop).filter
      (fun l => !r.ready.contains l && (r.step? l).isSome) = [] := by
    refine List.filter_eq_nil_iff.mpr fun l _ => ?_
    cases hstep : (r.step? l).isSome with
    | false => simp
    | true => simp [h l hstep]
  rw [wake, hnone, List.append_nil]

/-- At rest there is no loop to queue. -/
theorem Idle.queued (h : r.Idle) : r.Queued := by
  intro l hl
  rw [h.atRest l] at hl
  cases hl

/-- To settle at rest changes nothing. -/
theorem Idle.settle_eq (h : r.Idle) : r.settle = r :=
  settle_of_ready_eq_nil h.ready_eq

/-- A batch of commands leads from rest to rest. -/
theorem Idle.batch (h : r.Idle) (commands : List Command) : (r.batch commands).Idle := by
  by_cases hnone : commands = []
  · rw [hnone, Resolver.batch, List.foldl_nil, h.settle_eq]
    exact h
  · exact ⟨r.atRest_batch hnone, ready_settle _⟩

end RingRouting.Resolver
