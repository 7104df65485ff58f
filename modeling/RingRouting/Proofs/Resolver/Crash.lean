import RingRouting.Proofs.Resolver.Accounting
import RingRouting.Proofs.Resolver.Timetable

/-!
# Consumers that crash

When the consumer crashes on an update, the loop that applies is gone and what waited for it is
lost, but the resolver stays open and keeps the nodes of that update. The other loop learns of it
only when it has a full node list to hand over. If none waited for room at the crash, the loop keeps
to its timetable and reports what fails, until a full fetch succeeds, and with that fetch it ends.
If one waited, the loop ends with that one and makes no fetch any more. `Bereft` says what is left
alone, and which deeds there can be. Main statement: `follow_crash_contained`.
-/

namespace RingRouting.Resolver

variable {r r' : Resolver} {ds : List Deed} {update : List Address}

/-! ## The crash -/

/-- A push that the consumer crashes on ends the loop that applies. -/
theorem publish_of_crashed (hupdates : r.publish.updates = update :: r.updates)
    (hcrash : r.settings.answer r.updates update = .crashed) : r.publish.applying = .ended := by
  obtain ⟨_, _, _, _, hpublish, -⟩ := r.exists_publish
  rw [hpublish] at hupdates
  obtain rfl : r.roster.addresses = update := (List.cons.inj hupdates).1
  obtain ⟨registry, feed, hstop⟩ := exists_stopApplying r.noteUpdate
  rw [publish, if_pos hcrash, hstop]

/-- The loop that applies ends with the push that the consumer crashes on. -/
theorem Applied.crashed (h : Applied r r') (hupdates : r'.updates = update :: r.updates)
    (hcrash : r.settings.answer r.updates update = .crashed) : r'.applying = .ended := by
  cases h with
  | start | replace => exact publish_of_crashed hupdates hcrash
  | change hphase hopen hsyncs hreceive =>
    obtain ⟨registry, feed, rfl⟩ := exists_receive? hreceive
    exact publish_of_crashed hupdates hcrash
  | stop =>
    obtain ⟨registry, feed, hstop⟩ := exists_stopApplying r
    rw [hstop] at hupdates
    exact absurd hupdates.symm (List.cons_ne_self _ _)
  | exhaust => exact absurd hupdates.symm (List.cons_ne_self _ _)

/-- As long as the resolver is open and its consumer there, the loop that refreshes does not end. -/
theorem refreshing_ended_follow (h : r.refreshing = .ended → r.closed = true ∨ r.applying = .ended)
    (moves : List Move) :
    (r.follow moves).refreshing = .ended →
      (r.follow moves).closed = true ∨ (r.follow moves).applying = .ended := by
  induction moves generalizing r with
  | nil => exact h
  | cons m rest ih =>
    refine ih fun hend => ?_
    have hmoved := r.moved_move m
    generalize r.move m = r' at hmoved hend
    cases hmoved with
    | apply hstep =>
      have hends : r.applying = .ended → r'.applying = .ended :=
        (Moved.apply hstep).applying_eq_ended
      obtain ⟨_, _, _, _, _, _, _, _, rfl⟩ := hstep.exists_eq
      exact (h hend).imp_right hends
    | refresh hstep =>
      cases hstep with
      | start => cases hend
      | stop hphase hclosed => exact .inl hclosed
      | orphan hphase hopen hdue hquery hgone => exact .inr hgone
      | abandon hphase hgone => exact .inr hgone
      | fetch | wait | deliver => cases hend
      | fail hphase => exact absurd (hphase.symm.trans hend) RefreshPhase.noConfusion
    | outside hclosed => exact (h hend).imp_left hclosed

/-! ## Afterwards -/

/-- The resolver is closed or let go of. -/
def Move.isClosing : Move → Bool
  | .close | .release => true
  | _ => false

/-- How a resolver goes on that has lost its consumer, and what its loops do. -/
structure Bereft (r : Resolver) (ds : List Deed) (r' : Resolver) : Prop where
  applying_eq : r'.applying = .ended
  closed_eq : r'.closed = false
  held_eq : r'.held = r.held
  snapshot_eq : r'.snapshot = r.snapshot
  updates_eq : r'.updates = r.updates
  fetches_eq : r'.fetches = r.fetches + ds.length
  /-- Fetches fail until one succeeds, which is the last one. -/
  deeds_eq : r.unsent = [] → ∃ fails : List ResolutionError, r'.errors = fails.reverse ++ r.errors ∧
    (ds = fails.map .fail ∧ r'.refreshing ≠ .ended ∧ r'.unsent = [] ∨
      ∃ nodes, ds = fails.map .fail ++ [.fetch nodes] ∧ r'.refreshing = .ended)
  /-- No fetch follows on one whose nodes were not handed over yet. -/
  idle : r.unsent ≠ [] → ds = [] ∧ r'.errors = r.errors ∧
    (r'.refreshing ≠ .ended → r'.refreshing = r.refreshing)

theorem Bereft.refl (happlying : r.applying = .ended) (hopen : r.closed = false)
    (hphase : r.refreshing ≠ .ended) : Bereft r [] r where
  applying_eq := happlying
  closed_eq := hopen
  held_eq := rfl
  snapshot_eq := rfl
  updates_eq := rfl
  fetches_eq := rfl
  deeds_eq hnone := ⟨[], rfl, .inl ⟨rfl, hphase, hnone⟩⟩
  idle _ := ⟨rfl, rfl, fun _ => rfl⟩

/-- One more deed is one more fetch. -/
theorem Bereft.fetches_concat (h : Bereft r ds r') (d : Deed) :
    r'.fetches + 1 = r.fetches + (ds ++ [d]).length := by
  rw [h.fetches_eq, List.length_append, List.length_singleton, Nat.add_assoc]

/-- A loop that has nothing to hand over had nothing at the crash, and all its fetches failed. -/
theorem Bereft.of_unsent (h : Bereft r ds r') (hphase : r'.refreshing ≠ .ended)
    (hnone : r'.unsent = []) :
    r.unsent = [] ∧
      ∃ fails : List ResolutionError, r'.errors = fails.reverse ++ r.errors ∧
        ds = fails.map .fail := by
  have hbefore : r.unsent = [] := by
    by_contra hsome
    have hsame := (h.idle hsome).2.2 hphase
    rw [unsent, hsame] at hnone
    exact hsome hnone
  obtain ⟨fails, herrors, ⟨hds, -⟩ | ⟨-, -, hend⟩⟩ := h.deeds_eq hbefore
  · exact ⟨hbefore, fails, herrors, hds⟩
  · exact absurd hend hphase

/-- A loop that waits to hand over a list has waited since the crash. -/
theorem Bereft.of_sending (h : Bereft r ds r') {nodes : List Node}
    (hphase : r'.refreshing = .sending nodes) : r.unsent ≠ [] := by
  intro hnone
  obtain ⟨-, -, ⟨-, -, hunsent⟩ | ⟨-, -, hend⟩⟩ := h.deeds_eq hnone
  · exact absurd ((unsent_of_sending hphase).symm.trans hunsent) (List.cons_ne_nil _ _)
  · exact absurd (hphase.symm.trans hend) RefreshPhase.noConfusion

/-- One more step of the loop that refreshes: a fetch that fails, the last one, or a list that
finds nobody to take it. -/
theorem Bereft.refreshed {r'' : Resolver} (h : Bereft r ds r') (hstep : Refreshed r' r'') :
    Bereft r (ds ++ r'.nextDeeds .refresh) r'' := by
  cases hstep with
  | start hphase =>
    obtain ⟨hbefore, fails, herrors, hds⟩ :=
      h.of_unsent (hphase ▸ RefreshPhase.noConfusion) (unsent_of_starting hphase)
    rw [nextDeeds_refresh_of_starting hphase, List.append_nil]
    exact { h with
      deeds_eq := fun _ => ⟨fails, herrors, .inl ⟨hds, RefreshPhase.noConfusion, rfl⟩⟩
      idle := absurd hbefore }
  | stop hphase hclosed => exact absurd (h.closed_eq.symm.trans hclosed) Bool.false_ne_true
  | fetch hphase hopen hdue hquery halive | wait hphase hopen hdue hquery halive
  | deliver hphase halive => exact absurd h.applying_eq halive
  | @orphan nodes hphase hopen hdue hquery hgone =>
    obtain ⟨hbefore, fails, herrors, hds⟩ :=
      h.of_unsent (hphase ▸ RefreshPhase.noConfusion) (unsent_of_running hphase)
    rw [nextDeeds_refresh_of_ok hphase hopen hquery]
    exact { h with
      fetches_eq := h.fetches_concat _
      deeds_eq := fun _ => ⟨fails, herrors, .inr ⟨nodes, by rw [hds], rfl⟩⟩
      idle := absurd hbefore }
  | @fail e hphase hopen hdue hquery =>
    obtain ⟨hbefore, fails, herrors, hds⟩ :=
      h.of_unsent (hphase ▸ RefreshPhase.noConfusion) (unsent_of_running hphase)
    rw [nextDeeds_refresh_of_error hphase hopen hquery]
    refine { h with
      fetches_eq := h.fetches_concat _
      deeds_eq := fun _ =>
        ⟨fails ++ [e], ?_, .inl ⟨?_, hphase ▸ RefreshPhase.noConfusion, unsent_of_running hphase⟩⟩
      idle := absurd hbefore }
    · show e :: r'.errors = _
      rw [herrors, List.reverse_append]
      rfl
    · rw [hds, List.map_append]
      rfl
  | abandon hphase hgone =>
    have hbefore := h.of_sending hphase
    obtain ⟨hds, herrors, -⟩ := h.idle hbefore
    rw [nextDeeds_refresh_of_sending hphase, List.append_nil]
    exact { h with
      deeds_eq := fun hnone => absurd hnone hbefore
      idle := fun _ => ⟨hds, herrors, fun hgoing => absurd rfl hgoing⟩ }

/-- What is done from outside leaves the resolver open, unless it is closed or let go of. -/
theorem exists_move_open (r : Resolver) {m : Move} (hstep : ∀ l, m ≠ .step l)
    (hm : m.isClosing = false) :
    ∃ registry feed outage now requests ready,
      r.move m = { r with registry, feed, outage, now, requests, ready } := by
  cases m with
  | step l => exact absurd rfl (hstep l)
  | close | release => cases hm
  | registry =>
    simp only [move]
    split <;> exact ⟨_, _, _, _, _, _, rfl⟩
  | push | endWatch | resolveNow =>
    simp only [move, perform]
    split <;> exact ⟨_, _, _, _, _, _, rfl⟩
  | setOutage | clock | queue => exact ⟨_, _, _, _, _, _, rfl⟩

/-- Any move but one that closes keeps the resolver so. -/
theorem Bereft.move (h : Bereft r ds r') {m : Move} (hm : m.isClosing = false) :
    Bereft r (ds ++ r'.deeds m) (r'.move m) := by
  by_cases hstep : ∃ l, m = .step l
  · obtain ⟨l, rfl⟩ := hstep
    cases hnext : r'.step? l with
    | none =>
      obtain ⟨hmove, hdeeds⟩ := move_step_of_eq_none hnext
      rw [hmove, hdeeds, List.append_nil]
      exact h
    | some next =>
      obtain ⟨hmove, hdeeds⟩ := move_step_of_eq_some hnext
      rw [hmove, hdeeds]
      cases l with
      | apply => simp [step?, applyStep?, h.applying_eq] at hnext
      | refresh => exact h.refreshed (refreshed_of_refreshStep? hnext)
  · obtain ⟨_, _, _, _, _, _, hmove⟩ := r'.exists_move_open (not_exists.mp hstep) hm
    rw [r'.deeds_eq_nil (not_exists.mp hstep), List.append_nil, hmove]
    exact { h with }

/-- So do moves one after the other, by induction over them. -/
theorem Bereft.follow (h : Bereft r ds r') {moves : List Move}
    (hmoves : ∀ m ∈ moves, m.isClosing = false) :
    Bereft r (ds ++ r'.deedsBy moves) (r'.follow moves) := by
  induction moves generalizing r' ds with
  | nil =>
    rw [deedsBy, List.append_nil]
    exact h
  | cons m rest ih =>
    obtain ⟨hm, hrest⟩ := List.forall_mem_cons.mp hmoves
    rw [deedsBy, ← List.append_assoc]
    exact ih (h.move hm) hrest

/-- A loop that waits to hand over a list, though nobody is left to take it, ends in its next
step. -/
theorem refreshing_follow_of_sending (hgone : r.applying = .ended) {nodes : List Node}
    (hphase : r.refreshing = .sending nodes) {moves : List Move} (hstep : .step .refresh ∈ moves) :
    (r.follow moves).refreshing = .ended := by
  induction moves generalizing r with
  | nil => cases hstep
  | cons m rest ih =>
    have hmove : (r.move m).refreshing = .ended ∨
        m ≠ .step .refresh ∧ (r.move m).refreshing = .sending nodes := by
      by_cases hm : ∃ l, m = .step l
      · obtain ⟨l, rfl⟩ := hm
        cases l with
        | apply => exact .inr ⟨by simp, by simp [move, step?, applyStep?, hgone, hphase]⟩
        | refresh => exact .inl (by simp [move, step?, refreshStep?, handOver, hgone, hphase])
      · obtain ⟨_, _, _, _, _, _, _, _, heq, -⟩ := r.exists_move_eq (not_exists.mp hm)
        exact .inr ⟨fun h => hm ⟨_, h⟩, heq ▸ hphase⟩
    rcases hmove with hend | ⟨hne, hsending⟩
    · exact refreshing_follow_of_ended hend rest
    · exact ih ((r.moved_move m).applying_eq_ended hgone) hsending
        ((List.mem_cons.mp hstep).resolve_left (Ne.symm hne))

variable {settings : Settings} {feed : Feed} {registry : Registry} {outage : Option String}

/-- A consumer that crashes takes only the loop that applies with it. -/
theorem bereft_of_crash (hstart : ofFeed settings feed registry outage = .ok r) (before : List Move)
    (hopen : (r.follow before).closed = false)
    (hpush : ((r.follow before).move (.step .apply)).updates = update :: (r.follow before).updates)
    (hcrash : settings.answer (r.follow before).updates update = .crashed) :
    let r₁ := (r.follow before).move (.step .apply)
    Bereft r₁ [] r₁ ∧ r₁.held = true ∧ ∃ nodes, update = nodes.map Node.address ∧
    r₁.snapshot = nodes := by
  intro r₁
  obtain ⟨hsettings, -, hphase, -⟩ := fields_of_ofFeed hstart
  have hfaithful : r₁.Faithful :=
    (faithful_follow (faithful_ofFeed hstart) before).moved (moved_move _ _)
  cases hstep : (r.follow before).step? .apply with
  | none =>
    rw [(move_step_of_eq_none hstep).1] at hpush
    exact absurd hpush.symm (List.cons_ne_self _ _)
  | some next =>
    have happlied : Applied (r.follow before) r₁ := by
      show Applied _ ((r.follow before).move (.step .apply))
      rw [(move_step_of_eq_some hstep).1]
      exact applied_of_applyStep? hstep
    have hended : r₁.applying = .ended :=
      happlied.crashed hpush (by rw [(keeps_follow r before).1, hsettings]; exact hcrash)
    -- the loop that refreshes was still there when the other one made its last step
    have hgoing : (r.follow before).refreshing ≠ .ended := by
      intro hend
      rcases refreshing_ended_follow
        (fun h => absurd (hphase.symm.trans h) RefreshPhase.noConfusion) before hend with
        hclosed | hgone
      · exact absurd hclosed (hopen ▸ Bool.false_ne_true)
      · simp [step?, applyStep?, hgone] at hstep
    obtain ⟨_, _, _, _, _, _, _, _, heq⟩ := happlied.exists_eq
    have hopen₁ : r₁.closed = false := heq ▸ hopen
    have hheld : r₁.held = true := by
      cases hheld : r₁.held with
      | true => rfl
      | false => exact absurd (hfaithful.held hheld) (hopen₁ ▸ Bool.false_ne_true)
    have hhead := hfaithful.head?_updates (hended ▸ Phase.noConfusion)
    rw [show r₁.updates = update :: (r.follow before).updates from hpush, List.head?_cons] at hhead
    exact ⟨.refl hended hopen₁ (heq ▸ hgoing), hheld, r₁.roster.toList, Option.some.inj hhead,
      hfaithful.snapshot_eq⟩

/-- A consumer that crashes on an update, be it the first one or one that it took before, is given
no other, whatever happens to an open resolver from then on. The resolver keeps the nodes of that
update and is not closed. Its full fetches go on by the timetable until one succeeds, which counts
and is the last one; each that fails before it is reported once, and nothing else is. Only if a full
node list waited at the crash for room among those that the lost loop had to apply, there is neither
a fetch nor a report any more, and the loop that refreshes ends in its next step. -/
theorem follow_crash_contained (hstart : ofFeed settings feed registry outage = .ok r)
    (before : List Move) (hopen : (r.follow before).closed = false)
    (hpush : ((r.follow before).move (.step .apply)).updates = update :: (r.follow before).updates)
    (hcrash : settings.answer (r.follow before).updates update = .crashed) {later : List Move}
    (hlater : ∀ m ∈ later, m.isClosing = false) :
    let r₁ := (r.follow before).move (.step .apply)
    let r₂ := r₁.follow later
    let ds := r₁.deedsBy later
    r₂.updates = update :: (r.follow before).updates ∧
    (∃ nodes, update = nodes.map Node.address ∧ r₁.nodes? = some nodes ∧ r₂.nodes? = some nodes) ∧
    r₂.isClosed? = some false ∧
    r₂.fetches = r₁.fetches + ds.length ∧
    (r₁.unsent = [] → ∃ fails : List ResolutionError, r₂.errors = fails.reverse ++ r₁.errors ∧
      (ds = fails.map .fail ∧ r₂.refreshing ≠ .ended ∨
        ∃ nodes, ds = fails.map .fail ++ [.fetch nodes] ∧ r₂.refreshing = .ended)) ∧
    (r₁.unsent ≠ [] → ds = [] ∧ r₂.errors = r₁.errors ∧
      (.step .refresh ∈ later → r₂.refreshing = .ended)) ∧
    ∀ stages, r.runMoves stages = before ++ .step .apply :: later →
      r.fetchTimes (r.runMoves stages) <+: timetable settings.interval 0 0 stages ∧
        (r₂.refreshing ≠ .ended →
          r.fetchTimes (r.runMoves stages) = timetable settings.interval 0 0 stages) := by
  intro r₁ r₂ ds
  obtain ⟨hbereft, hheld, nodes, hnodes, hsnapshot⟩ :=
    bereft_of_crash hstart before hopen hpush hcrash
  have hend : Bereft r₁ ds r₂ := hbereft.follow hlater
  have hheld₂ : r₂.held = true := hend.held_eq.trans hheld
  refine ⟨hend.updates_eq.trans hpush, ⟨nodes, hnodes, ?_, ?_⟩, ?_, hend.fetches_eq,
    fun hnone => ?_, fun hsome => ?_, ?_⟩
  · rw [nodes?, if_pos hheld, hsnapshot]
  · rw [nodes?, if_pos hheld₂, hend.snapshot_eq, hsnapshot]
  · rw [isClosed?, if_pos hheld₂, hend.closed_eq]
  · obtain ⟨fails, herrors, hcase⟩ := hend.deeds_eq hnone
    exact ⟨fails, herrors, hcase.imp_left fun hfails => ⟨hfails.1, hfails.2.1⟩⟩
  · obtain ⟨hds, herrors, -⟩ := hend.idle hsome
    refine ⟨hds, herrors, fun hstep => ?_⟩
    cases hphase : r₁.refreshing with
    | starting => exact absurd (unsent_of_starting hphase) hsome
    | running => exact absurd (unsent_of_running hphase) hsome
    | sending waiting => exact refreshing_follow_of_sending hbereft.applying_eq hphase hstep
    | ended => exact refreshing_follow_of_ended hphase later
  · intro stages hmoves
    have hrun : r.follow (r.runMoves stages) = r₂ := by
      rw [hmoves, follow_append]
      rfl
    have hopen₂ : (r.follow (r.runMoves stages)).closed = false := hrun ▸ hend.closed_eq
    rcases timetable_of_runMoves hstart hopen₂ with ⟨-, htimes⟩ | ⟨hended, -, hpart⟩
    · exact ⟨htimes ▸ List.prefix_rfl, fun _ => htimes⟩
    · exact ⟨hpart, fun hgoing => absurd (hrun ▸ hended) hgoing⟩

/-- The consumer crashes on a list that it took before. A fetch that is asked for and one at a
deadline fail, the one at the next deadline succeeds, and there is none at the deadline after it. -/
theorem follow_crash_outage_contained :
    let node : Node := { id := "a", service := "s", protocol := .grpc, host := "h", port := 1 }
    let settings : Settings := ⟨⟨"s", .grpc, []⟩, 1000, by decide,
      fun earlier _ => if earlier = [] then .accepted else .crashed⟩
    let stages : List Stage :=
      [.give [.resolveNow] (by decide), .give [.setOutage (some "down"), .resolveNow] (by decide),
        .pass 1000, .give [.setOutage none] (by decide), .pass 2500]
    ∃ r, ofFeed settings (.manual { capacity := 1 } false) (({} : Registry).register 0 node) none =
      .ok r ∧
      let s := r.follow ((r.runMoves stages).take 12)
      let later := (r.runMoves stages).drop 13
      let r₁ := s.move (.step .apply)
      let r₂ := r₁.follow later
      s.updates = [[node.address]] ∧ r₁.updates = [[node.address], [node.address]] ∧
      r₁.unsent = [] ∧
      r₁.deedsBy later = [.fail (.query "s" "down"), .fail (.query "s" "down"), .fetch [node]] ∧
      r₂.updates = r₁.updates ∧ r₂.nodes? = some [node] ∧ r₂.isClosed? = some false ∧
      r₂.fetches = 5 ∧ r.fetchTimes (r.runMoves stages) = [0, 0, 1000, 2000] ∧
      r.fetchTimes (r.runMoves stages) <+: timetable 1000 0 0 stages ∧
      timetable 1000 0 0 stages = [0, 0, 1000, 2000, 3000] := by
  intro node settings stages
  -- what the run comes to is evaluated, and the rest follows from what holds of every run
  obtain ⟨r, hstart, hmoves, hopen, hpush, hfirst, hlater, hunsent, hbefore, hdeeds, hnodes,
    htimes⟩ : ∃ r,
      ofFeed settings (.manual { capacity := 1 } false) (({} : Registry).register 0 node) none =
      .ok r ∧
        let moves := r.runMoves stages
        let s := r.follow (moves.take 12)
        let r₁ := s.move (.step .apply)
        moves = moves.take 12 ++ .step .apply :: moves.drop 13 ∧ s.closed = false ∧
        r₁.updates = [node.address] :: s.updates ∧ s.updates = [[node.address]] ∧
        (moves.drop 13).all (fun m => !m.isClosing) = true ∧ r₁.unsent = [] ∧ r₁.fetches = 2 ∧
        r₁.deedsBy (moves.drop 13) = [.fail (.query "s" "down"), .fail (.query "s" "down"),
          .fetch [node]] ∧
        r₁.nodes? = some [node] ∧ r.fetchTimes moves = [0, 0, 1000, 2000] := by
    refine ⟨_, rfl, ?_⟩
    dsimp only
    refine ⟨?_, ?_, ?_, ?_, ?_, ?_, ?_, ?_, ?_, ?_⟩ <;> cbv
  obtain ⟨hupdates, ⟨nodes, -, hnodes₁, hnodes₂⟩, hclosed, hfetches, -, -, hplan⟩ :=
    follow_crash_contained hstart _ hopen hpush (by rw [hfirst]; decide)
      (fun m hm => by simpa using List.all_eq_true.mp hlater m hm)
  refine ⟨r, hstart, hfirst, ?_, hunsent, hdeeds, ?_, ?_, hclosed, ?_, htimes,
    (hplan stages hmoves).1, by decide⟩
  · rw [hpush, hfirst]
  · rw [hupdates, hpush]
  · rw [hnodes₂, ← hnodes₁, hnodes]
  · rw [hfetches, hbefore, hdeeds]
    rfl

/-- A crash is not always followed by a fetch that succeeds: the loop that applies has not taken any
of four full node lists, and a fifth one waits for room, when the consumer crashes on its first
update; the other loop ends without another fetch, though it is asked for one and its deadline has
come. Nor does each batch of requests make one fetch after a crash: two requests that come together
during an outage are two fetches, and both failures are reported. -/
theorem follow_crash_undelivered :
    let node : Node := { id := "a", service := "s", protocol := .grpc, host := "h", port := 1 }
    let settings : Settings := ⟨⟨"s", .grpc, []⟩, 1000, by decide, fun _ _ => .crashed⟩
    let fetched : List Move := [.resolveNow, .step .refresh]
    let before : List Move := .step .refresh :: (List.replicate 5 fetched).flatten
    let later : List Move := [.step .refresh, .resolveNow, .clock 1000, .step .refresh]
    ∃ r, ofFeed settings (.manual { capacity := 1 } false) (({} : Registry).register 0 node) none =
      .ok r ∧
      (let s := r.follow before
        let r₁ := s.move (.step .apply)
        let r₂ := r₁.follow later
        s.updates = [] ∧ s.fetches = 6 ∧ r₁.updates = [[node.address]] ∧ r₁.applying = .ended ∧
        r₁.unsent = [[node]] ∧ r₁.deedsBy later = [] ∧ r₂.refreshing = .ended ∧ r₂.fetches = 6 ∧
        r₂.closed = false ∧ query r₂.registry r₂.outage r₂.settings.selection = .ok [node]) ∧
      let r₁ := r.wake.settle
      let r₂ := (r₁.batch [.setOutage (some "down")]).batch [.resolveNow, .resolveNow]
      r₁.updates = [[node.address]] ∧ r₁.applying = .ended ∧ r₁.fetches = 1 ∧
        r₂.fetches = 3 ∧ r₂.errors = [.query "s" "down", .query "s" "down"] := by
  intro node settings fetched before later
  refine ⟨_, rfl, ⟨?_, ?_, ?_, ?_, ?_, ?_, ?_, ?_, ?_, ?_⟩, ?_, ?_, ?_, ?_, ?_⟩ <;> cbv

end RingRouting.Resolver
