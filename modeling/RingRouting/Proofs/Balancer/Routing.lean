import RingRouting.Proofs.Balancer.Records

/-!
# What is known of the handles that calls go to

Calls go to handles that are held, and of a handle that is held a state is recorded from when it is
made, until it reports to be shut down. From then on nothing is recorded of it, and its reports are
those of a handle that is not known, although it is held on and stands on the ring: whether it is
held depends on the addresses alone. As long as it was not shut down, a report that it is ready or
failing is recorded and counts. Main statement: `run_routes_tracked`.
-/

namespace RingRouting.Balancer

variable {b : Balancer} {id : Nat}

/-- A report that the handle is ready or failing is recorded, and the state of all connections is
taken down with it and published. -/
def Hears (b : Balancer) (id : Nat) : Prop :=
  ∀ new cause, new = .ready ∨ new = .transientFailure →
    let o := b.report id new cause
    o.balancer.states[id]? = some new ∧ o.balancer.state = .best o.balancer.states.values ∧
      published o.actions = [(o.balancer.state, o.balancer.picker)]

/-- Whatever the handle reports, nothing is done and nothing changes. -/
def Ignores (b : Balancer) (id : Nat) : Prop :=
  ∀ new cause, b.report id new cause = { balancer := b }

/-- A sound balancer hears every handle that it has a record of. -/
theorem Sound.hears (hb : b.Sound) (hconfigured : b.Configured) (htracked : b.states[id]?.isSome) :
    b.Hears id := by
  intro new cause hnew o
  obtain ⟨old, hold⟩ := Option.isSome_iff_exists.mp htracked
  have hcounts : ¬(old = .transientFailure ∧ (new = .connecting ∨ new = .idle)) := by
    rcases hnew with rfl | rfl <;> simp
  have hrecords : b.Records id new := ⟨old, hold, hcounts⟩
  have htakes : b.TakesDown (.report id new cause) := by
    refine ⟨hrecords, fun dial addresses policy heq => ?_⟩
    cases heq
  have hannounces : Announces (b.report id new cause) :=
    hconfigured.announces_of_accepts (show b.Accepts (.report id new cause) from hrecords)
  refine ⟨?_, ?_, hannounces.published_eq⟩
  · have hnew : new ≠ .shutdown := by rcases hnew with rfl | rfl <;> decide
    rw [getElem?_states_report, if_pos rfl, hold, heard, Option.bind_some, if_neg hcounts,
      if_neg hnew]
  · rw [← (hb.report id new cause).counts.aggregate_eq]
    cases b.summed_report id new cause with
    | taken _ hstate => exact hstate
    | kept hnot => exact absurd htakes hnot
    | emptied haccepts => exact absurd hrecords haccepts

/-- A report from a handle without a record is ignored. -/
theorem ignores_of_getElem?_states (h : b.states[id]? = none) : b.Ignores id := by
  intro new cause
  simp only [Balancer.report, h]

/-- A handle that calls may go to is held, and from then on, while it is held, it is heard unless it
has reported to be shut down since it was made. -/
theorem run_routes_tracked (p : Partitioner) (callbacks further : List Callback)
    (hhonest : Honest (run p (callbacks ++ further)).actions) :
    let b := (run p (callbacks ++ further)).balancer
    ∀ state picker, (published (run p callbacks).actions).getLast? = some (state, picker) →
      ∀ key chance m c, (picker.pick key chance m).1 = .ok c →
        ∃ a : Address, (run p callbacks).balancer.connections[a]? = some c ∧
          (b.connections[a]? = some c → ∃ before made later,
            callbacks ++ further = before ++ made :: later ∧
            (c, a) ∈ dialed ((run p before).balancer.handle made).actions ∧
            (.shutdown ∉ reportsOn c.id later → b.states[c.id]?.isSome ∧ b.Hears c.id) ∧
            (.shutdown ∈ reportsOn c.id later → b.states[c.id]? = none ∧ b.Ignores c.id)) := by
  intro b state picker hlast key chance m c hc
  obtain ⟨a, ha⟩ := exists_connection_of_pick p callbacks
    (hhonest.of_prefix (prefix_run p callbacks further)) hlast hc
  refine ⟨a, ha, fun hheld => ?_⟩
  obtain ⟨before, made, later, hsplit, hdialed, hstates, -⟩ := exists_made_run p _ hhonest hheld
  refine ⟨before, made, later, hsplit, hdialed, fun hnot => ?_, fun hshutdown => ?_⟩
  · have htracked := isSome_recordedAfter_iff.mpr hnot
    rw [← hstates] at htracked
    exact ⟨htracked, (soundAfter_run p _ hhonest).sound.hears (configured_run p _) htracked⟩
  · have hnone := hstates.trans (recordedAfter_eq_none_iff.mpr hshutdown)
    exact ⟨hnone, ignores_of_getElem?_states hnone⟩

/-- Of two handles one is shut down. An update with the addresses of both makes nothing anew. Calls
go to the other one, which fails, and is heard when it is ready again. -/
theorem run_shutdown_routes_tracked :
    let node (addr : String) (id : String) : Address := ⟨addr, "", some id⟩
    let nodes := [node "h:1" "m", node "h:2" "n"]
    let callbacks : List Callback :=
      [.update (fun made a => some ⟨made, a⟩) nodes (some ⟨2, 1⟩), .report 1 .shutdown none,
        .update (fun _ _ => none) nodes none]
    let o := run Ring.crowded (callbacks ++ [.report 0 .transientFailure none])
    Honest o.actions ∧ o.balancer.state = .transientFailure ∧ o.balancer.Hears 0 := by
  intro node nodes callbacks o
  have hhonest : Honest o.actions := ⟨by decide, by decide⟩
  obtain ⟨a, ha, hheld⟩ := run_routes_tracked Ring.crowded callbacks
    [.report 0 .transientFailure none] hhonest _ _ (getLast?_published_run _ callbacks (by decide))
    (some "k".toUTF8) ⟨.empty, 0⟩ {} ⟨0, node "h:1" "m"⟩ (by decide +kernel)
  obtain rfl : node "h:1" "m" = a :=
    (soundAfter_run Ring.crowded callbacks ⟨by decide, by decide⟩).sound.bound a _ ha
  obtain ⟨before, made, later, hsplit, -, htracked, -⟩ := hheld (by decide)
  refine ⟨hhonest, by decide, (htracked fun hshutdown => ?_).2⟩
  -- the only report of the handle is that it fails
  have hreports :
      reportsOn 0 (callbacks ++ [.report 0 .transientFailure none]) = [.transientFailure] := by
    decide
  rw [hsplit, ← List.singleton_append, ← List.append_assoc, reportsOn_append] at hreports
  have hmem := hreports ▸ List.mem_append_right _ hshutdown
  exact absurd (List.mem_singleton.mp hmem) (by decide)

/-- Of two handles one is shut down. It is not made anew by an update with the addresses of both,
which is accepted. Calls go to it on, and when it is ready again that is not taken down. -/
theorem run_routes_untracked :
    let node (addr : String) (id : String) : Address := ⟨addr, "", some id⟩
    let nodes := [node "h:1" "m", node "h:2" "n"]
    let callbacks : List Callback :=
      [.update (fun made a => some ⟨made, a⟩) nodes (some ⟨2, 1⟩), .report 0 .shutdown none]
    let update : Callback := .update (fun _ _ => none) nodes none
    let o := run Ring.crowded (callbacks ++ [update])
    Honest o.actions ∧ ((run Ring.crowded callbacks).balancer.handle update).error = none ∧
      (∃ state picker, (published o.actions).getLast? = some (state, picker) ∧
        (picker.pick (some "k".toUTF8) ⟨.empty, 0⟩ {}).1 = .ok ⟨0, node "h:1" "m"⟩) ∧
      o.balancer.states[0]? = none ∧
      (o.balancer.report 0 .ready none).balancer.states[0]? = none ∧
      (o.balancer.report 0 .ready none).balancer.state = .idle := by
  intro node nodes callbacks update o
  have hlast := getLast?_published_run Ring.crowded (callbacks ++ [update]) (by decide)
  exact ⟨⟨by decide, by decide⟩, by decide, ⟨_, _, hlast, by decide +kernel⟩, by decide, by decide,
    by decide⟩

end RingRouting.Balancer
