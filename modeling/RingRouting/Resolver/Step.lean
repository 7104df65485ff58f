import RingRouting.Resolver.Basic

/-!
# Steps of the two loops

Each loop goes on by steps, as long as it has something to do. Both look first whether the resolver
is closed. The loop that applies then prefers full node lists to single changes, so that a busy
watch does not hold them up; the loop that refreshes prefers the deadline to a request. While it
waits to hand over a list, the loop that refreshes looks at nothing else.

The main statements say that each step uses up work: `work_lt_of_applyStep?` and
`work_lt_of_refreshStep?`. So the loops come to rest when nothing is added from outside.
-/

namespace RingRouting.Resolver

/-- One step of the loop that applies, if it can go on. -/
def applyStep? (r : Resolver) : Option Resolver :=
  match r.applying with
  | .starting => some { r with applying := .running }.publish
  | .running =>
    if r.closed then some r.stopApplying
    else match r.syncs with
      | nodes :: rest => some ({ r with syncs := rest }.apply ⟨.sync, nodes⟩)
      | [] =>
        if r.watchOpen then
          match r.receive? with
          | some (change, rest) => some (rest.apply change)
          | none => if r.feedEnded then some { r with watchOpen := false } else none
        else none
  | .ended => none

/-- One step of the loop that refreshes, if it can go on. A fetch sets the deadline anew. A request
that comes while the loop waits wakes it, and one more is kept until the next wait; when the
deadline comes first, at most one of them is left. -/
def refreshStep? (r : Resolver) : Option Resolver :=
  match r.refreshing with
  | .starting =>
    some { r with refreshing := .running, deadline := r.now + r.settings.interval }
  | .running =>
    if r.closed then some { r with refreshing := .ended }
    else if r.deadline ≤ r.now then
      some { r with
        deadline := r.now + r.settings.interval
        requests := min r.requests 1 }.refetch
    else if 0 < r.requests then
      some { r with
        deadline := r.now + r.settings.interval
        requests := r.requests - 1 }.refetch
    else none
  | .sending nodes =>
    if r.applying = .ended ∨ r.syncs.length < syncCapacity then some (r.handOver nodes) else none
  | .ended => none

/-- One step of a loop, if it can go on. -/
def step? (r : Resolver) : Loop → Option Resolver
  | .apply => r.applyStep?
  | .refresh => r.refreshStep?

/-- A bound on the steps that the loop which applies can still make. -/
def applyWork (r : Resolver) : Nat :=
  match r.applying with
  | .starting => r.syncs.length + r.pending + r.watchOpen.toNat + 2
  | .running => r.syncs.length + r.pending + r.watchOpen.toNat + 1
  | .ended => 0

/-- A bound on the work of the loop that refreshes. A fetch counts three times, as it may first make
the loop wait and then gives the other loop one more thing to do. -/
def refreshWork (r : Resolver) : Nat :=
  match r.refreshing with
  | .starting => 3 * (r.requests + 2)
  | .running => 3 * (r.requests + (if r.deadline ≤ r.now then 1 else 0) + 1)
  | .sending _ => 3 * (r.requests + (if r.deadline ≤ r.now then 1 else 0) + 1) + 2
  | .ended => 0

/-- A measure that every step lowers. -/
def work (r : Resolver) : Nat :=
  r.applyWork + r.refreshWork

@[simp] theorem applyWork_stopApplying (r : Resolver) : r.stopApplying.applyWork = 0 := by
  unfold stopApplying
  split <;> rfl

@[simp] theorem refreshWork_stopApplying (r : Resolver) :
    r.stopApplying.refreshWork = r.refreshWork := by
  unfold stopApplying
  split <;> rfl

/-- A publication makes no work for the loop that applies. -/
theorem applyWork_publish_le (r : Resolver) : r.publish.applyWork ≤ r.applyWork := by
  unfold publish
  split
  · simp
  · exact Nat.le_refl _

@[simp] theorem refreshWork_publish (r : Resolver) : r.publish.refreshWork = r.refreshWork := by
  unfold publish
  split
  · rw [refreshWork_stopApplying]
    rfl
  · rfl

theorem applyWork_apply_le (r : Resolver) (c : Change) : (r.apply c).applyWork ≤ r.applyWork :=
  applyWork_publish_le _

@[simp] theorem refreshWork_apply (r : Resolver) (c : Change) :
    (r.apply c).refreshWork = r.refreshWork :=
  refreshWork_publish _

/-- Receiving takes one change out of the feed and touches nothing else that counts as work. -/
theorem work_of_receive? {r rest : Resolver} {c : Change} (h : r.receive? = some (c, rest)) :
    rest.pending + 1 = r.pending ∧ rest.applying = r.applying ∧ rest.syncs = r.syncs ∧
      rest.watchOpen = r.watchOpen ∧ rest.refreshWork = r.refreshWork := by
  unfold receive? at h
  split at h
  next watch hfeed =>
    obtain ⟨⟨change, registry⟩, hreceive, heq⟩ := Option.map_eq_some_iff.mp h
    injection heq with hchange hrest
    subst hrest
    refine ⟨?_, rfl, rfl, rfl, rfl⟩
    simp only [pending, hfeed]
    exact Registry.pending_of_receive? hreceive
  next m ended hfeed =>
    obtain ⟨⟨change, taken⟩, hreceive, heq⟩ := Option.map_eq_some_iff.mp h
    injection heq with hchange hrest
    subst hrest
    refine ⟨?_, rfl, rfl, rfl, rfl⟩
    simp only [pending, hfeed]
    exact Mailbox.length_of_receive? hreceive

/-- Every step of the loop that applies uses up work. -/
theorem work_lt_of_applyStep? {r next : Resolver} (h : r.applyStep? = some next) :
    next.work < r.work := by
  unfold applyStep? at h
  split at h
  next hphase =>
    obtain rfl := Option.some.inj h
    have hle := applyWork_publish_le { r with applying := .running }
    have hrefresh : ({ r with applying := .running } : Resolver).refreshWork = r.refreshWork := rfl
    simp only [work, refreshWork_publish, hrefresh]
    simp only [applyWork, pending, hphase] at hle ⊢
    omega
  next hphase =>
    split at h
    next =>
      obtain rfl := Option.some.inj h
      simp only [work, applyWork_stopApplying, refreshWork_stopApplying]
      simp only [applyWork, hphase]
      omega
    next =>
      split at h
      next nodes rest hsyncs =>
        obtain rfl := Option.some.inj h
        have hle := applyWork_apply_le { r with syncs := rest } ⟨.sync, nodes⟩
        have hrefresh : ({ r with syncs := rest } : Resolver).refreshWork = r.refreshWork := rfl
        simp only [work, refreshWork_apply, hrefresh]
        simp only [applyWork, pending, hphase, hsyncs, List.length_cons] at hle ⊢
        omega
      next hsyncs =>
        split at h
        next hopen =>
          split at h
          next change rest hreceive =>
            obtain rfl := Option.some.inj h
            obtain ⟨hpending, hsame, hsyncs', hopen', hrefresh⟩ := work_of_receive? hreceive
            have hle := applyWork_apply_le rest change
            simp only [work, refreshWork_apply, hrefresh]
            simp only [applyWork, hsame, hphase, hsyncs', hopen'] at hle ⊢
            omega
          next =>
            split at h
            next =>
              obtain rfl := Option.some.inj h
              have hrefresh : ({ r with watchOpen := false } : Resolver).refreshWork =
                r.refreshWork := rfl
              simp only [work, hrefresh]
              simp only [applyWork, pending, hphase, hopen, Bool.toNat_true, Bool.toNat_false]
              omega
            next => cases h
        next => cases h
  next => cases h

/-- A fetch gives the loop that applies one more thing to do, or makes the loop that refreshes
wait. -/
theorem work_refetch_le {r : Resolver} (hphase : r.refreshing = .running) :
    r.refetch.work ≤ r.work + 2 := by
  unfold refetch handOver
  split
  next nodes hquery =>
    split
    next =>
      simp only [work, applyWork, refreshWork, pending]
      omega
    next =>
      split
      next =>
        simp only [work, applyWork, refreshWork, pending, hphase, List.length_append,
          List.length_singleton]
        cases r.applying <;> dsimp only <;> omega
      next =>
        simp only [work, applyWork, refreshWork, pending, hphase]
        omega
  next => exact Nat.le_add_right ..

/-- Handing over a list that waits uses up work, as the loop that applies has one more thing to do
but the other one waits no longer. -/
theorem work_handOver_lt {r : Resolver} {nodes : List Node} (hphase : r.refreshing = .sending nodes)
    (hgo : r.applying = .ended ∨ r.syncs.length < syncCapacity) :
    (r.handOver nodes).work < r.work := by
  unfold handOver
  split
  next =>
    simp only [work, applyWork, refreshWork, pending, hphase]
    omega
  next halive =>
    rw [if_pos (hgo.resolve_left halive)]
    simp only [work, applyWork, refreshWork, pending, hphase, List.length_append,
      List.length_singleton]
    cases r.applying <;> dsimp only <;> omega

/-- Every step of the loop that refreshes uses up work. -/
theorem work_lt_of_refreshStep? {r next : Resolver} (h : r.refreshStep? = some next) :
    next.work < r.work := by
  have hpos := r.settings.interval_pos
  unfold refreshStep? at h
  split at h
  next hphase =>
    obtain rfl := Option.some.inj h
    simp only [work, applyWork, refreshWork, pending, hphase]
    rw [if_neg (by omega)]
    omega
  next hphase =>
    split at h
    next =>
      obtain rfl := Option.some.inj h
      simp only [work, applyWork, refreshWork, pending, hphase]
      omega
    next =>
      split at h
      next hdue =>
        obtain rfl := Option.some.inj h
        refine Nat.lt_of_le_of_lt (work_refetch_le hphase) ?_
        simp only [work, applyWork, refreshWork, pending, hphase]
        rw [if_neg (by omega), if_pos hdue]
        omega
      next hdue =>
        split at h
        next hrequest =>
          obtain rfl := Option.some.inj h
          refine Nat.lt_of_le_of_lt (work_refetch_le hphase) ?_
          simp only [work, applyWork, refreshWork, pending, hphase]
          rw [if_neg (by omega), if_neg hdue]
          omega
        next => cases h
  next nodes hphase =>
    split at h
    next hgo => exact Option.some.inj h ▸ work_handOver_lt hphase hgo
    next => cases h
  next => cases h

/-- Every step uses up work. -/
theorem work_lt_of_step? {r next : Resolver} {l : Loop} (h : r.step? l = some next) :
    next.work < r.work := by
  cases l with
  | apply => exact work_lt_of_applyStep? h
  | refresh => exact work_lt_of_refreshStep? h

end RingRouting.Resolver
