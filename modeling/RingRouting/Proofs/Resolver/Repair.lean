import RingRouting.Proofs.Resolver.Queues

/-!
# Repair

A watch that is full loses changes, and a full fetch is there to make that good. It does so only in
part: the fetched nodes are applied before the changes that the watch still holds, and these are
then replayed on them. What is known in the end is the fetched nodes with the changes replayed that
the watch held at the fetch, so it is the fetched nodes exactly if the last word of these changes on
each identity agrees with them. Main statement: `follow_replays`; a run that ends with a node which
is not registered is `follow_lossy_stale`.
-/

namespace RingRouting

/-! ## The queues -/

namespace Queues

/-- The selection has not changed since a full fetch. What the fetch brought waits to be handed
over, or what will be known is what was fetched, with changes replayed on it that the watch held at
that time: all of them if it was handed over at once and there was no later fetch. -/
structure Repairing (fetched : Roster) (held : List Change) (fetches : Nat) (direct : Prop)
    (q : Queues) : Prop where
  selected_eq : q.selected = fetched
  unsent_eq : ∀ nodes ∈ q.unsent, nodes = fetched
  suffix : q.waiting <:+ held
  fetches_le : fetches ≤ q.fetches
  unsent_eq_nil : direct → q.fetches = fetches → q.unsent = []
  unsent_or_replayed : q.fetches = fetches ∧ q.unsent ≠ [] ∨
    ∃ replayed, replayed <:+ held ∧ (direct → q.fetches = fetches → replayed = held) ∧
      q.projected = replayed.foldl Roster.apply fetched

/-- A full fetch whose list is handed over at once begins a repair. -/
theorem repairing_fetch {q : Queues} (hunsent : q.unsent = []) (direct : Prop) :
    Repairing q.selected q.waiting (q.fetches + 1) direct
      { q with syncs := q.syncs ++ [q.selected], fetches := q.fetches + 1 } where
  selected_eq := rfl
  unsent_eq nodes hnodes := by
    rw [hunsent] at hnodes
    cases hnodes
  suffix := List.suffix_rfl
  fetches_le := Nat.le_refl _
  unsent_eq_nil _ _ := hunsent
  unsent_or_replayed :=
    .inr ⟨q.waiting, List.suffix_rfl, fun _ _ => rfl, q.projected_concat ..⟩

/-- So does one whose list has to wait. -/
theorem repairing_offer (q : Queues) {direct : Prop} (hwaits : ¬ direct) :
    Repairing q.selected q.waiting (q.fetches + 1) direct
      { q with unsent := [q.selected], fetches := q.fetches + 1 } where
  selected_eq := rfl
  unsent_eq _ hnodes := List.mem_singleton.mp hnodes
  suffix := List.suffix_rfl
  fetches_le := Nat.le_refl _
  unsent_eq_nil hdirect := absurd hdirect hwaits
  unsent_or_replayed := .inl ⟨rfl, List.cons_ne_nil _ _⟩

variable {fetched : Roster} {held : List Change} {fetches : Nat} {direct : Prop} {q q' : Queues}

/-- A step without changes of the selection goes on with a repair. -/
theorem Repairing.step (h : q.Repairing fetched held fetches direct) (hstep : Step q [] q') :
    q'.Repairing fetched held fetches direct := by
  -- a later fetch is told from this one by the number of fetches
  have hlater : q.fetches + 1 ≠ fetches := fun heq => absurd h.fetches_le (by omega)
  have hle : fetches ≤ q.fetches + 1 := Nat.le_succ_of_le h.fetches_le
  have hreplayed (hunsent : q.unsent = []) : ∃ replayed, replayed <:+ held ∧
      q.projected = replayed.foldl Roster.apply fetched := by
    rcases h.unsent_or_replayed with ⟨-, hsome⟩ | ⟨replayed, hsuffix, -, hprojected⟩
    · exact absurd hunsent hsome
    · exact ⟨replayed, hsuffix, hprojected⟩
  cases hstep with
  | hear =>
    rw [List.append_nil, List.foldl_nil]
    exact h
  | miss hunsent =>
    obtain ⟨replayed, hsuffix, hprojected⟩ := hreplayed hunsent
    exact ⟨h.selected_eq, h.unsent_eq, h.suffix, hle, fun _ heq => absurd heq hlater,
      .inr ⟨replayed, hsuffix, fun _ heq => absurd heq hlater, hprojected⟩⟩
  | fetch hunsent =>
    -- a later fetch starts anew, with what the watch still holds
    refine ⟨h.selected_eq, h.unsent_eq, h.suffix, hle, fun _ heq => absurd heq hlater,
      .inr ⟨q.waiting, h.suffix, fun _ heq => absurd heq hlater, ?_⟩⟩
    rw [projected_concat, h.selected_eq]
  | offer hunsent =>
    obtain ⟨replayed, hsuffix, hprojected⟩ := hreplayed hunsent
    refine ⟨h.selected_eq, fun nodes hnodes => ?_, h.suffix, hle, fun _ heq => absurd heq hlater,
      .inr ⟨replayed, hsuffix, fun _ heq => absurd heq hlater, hprojected⟩⟩
    exact (List.mem_singleton.mp hnodes).trans h.selected_eq
  | deliver hunsent =>
    have hsome : q.unsent ≠ [] := hunsent ▸ List.cons_ne_nil _ _
    obtain rfl := h.unsent_eq _ (hunsent ▸ List.mem_cons_self)
    exact ⟨h.selected_eq, nofun, h.suffix, h.fetches_le, fun _ _ => rfl, .inr ⟨q.waiting, h.suffix,
      fun hdirect heq => absurd (h.unsent_eq_nil hdirect heq) hsome, q.projected_concat ..⟩⟩
  | replace hsyncs =>
    refine ⟨h.selected_eq, h.unsent_eq, h.suffix, h.fetches_le, h.unsent_eq_nil, ?_⟩
    rw [projected_replace hsyncs]
    exact h.unsent_or_replayed
  | change hsyncs hwaiting =>
    have hrest := (hwaiting ▸ List.suffix_cons _ _ : _ <:+ q.waiting)
    refine ⟨h.selected_eq, h.unsent_eq, hrest.trans h.suffix, h.fetches_le, h.unsent_eq_nil, ?_⟩
    rw [projected_change hsyncs hwaiting]
    exact h.unsent_or_replayed

/-- So do steps one after the other, by induction over them. -/
theorem Repairing.steps {cs : List Change} (h : q.Repairing fetched held fetches direct)
    (hsteps : Steps q cs q') (hquiet : cs = []) : q'.Repairing fetched held fetches direct := by
  induction hsteps with
  | refl => exact h
  | cons hstep _ ih =>
    obtain ⟨rfl, rfl⟩ := List.append_eq_nil_iff.mp hquiet
    exact ih (h.step hstep) rfl

end Queues

namespace Resolver

variable {l : Launch} {r r' : Resolver} {watch : Nat} {settings : Settings}

/-! ## Quiet times -/

/-- The watch is told nothing as long as the registry does not change. -/
theorem Wired.lossless_of_quiet (h : r.Wired watch settings) {moves : List Move}
    (hquiet : ∀ op, .registry op ∈ moves → op.isChange = false) :
    r.Lossless moves ∧ r.Prompt moves ∧ r.announcedBy moves = [] := by
  induction moves generalizing r with
  | nil => exact ⟨trivial, trivial, rfl⟩
  | cons m rest ih =>
    obtain ⟨hwired, -⟩ := h.move m
    have hm : r.Keeps m ∧ r.announced m = [] := by
      cases m with
      | registry op =>
        have hop := hquiet op List.mem_cons_self
        have hannounced : r.announced (.registry op) = [] := Registry.changes_eq_nil _ _ hop
        refine ⟨?_, hannounced⟩
        show (r.move (.registry op)).waiting = r.waiting ++ r.announced (.registry op)
        rw [hannounced, List.append_nil, hwired.waiting_eq, h.waiting_eq]
        simp only [Resolver.move, h.feed_eq]
        exact h.followed.waiting_performBeside hop
      | push | endWatch | setOutage | resolveNow | close | release | clock | step | queue =>
        exact ⟨trivial, rfl⟩
    obtain ⟨hrest, hprompt, hnil⟩ := ih hwired fun op hop => hquiet op (List.mem_cons_of_mem m hop)
    exact ⟨⟨hm.1, hrest⟩, ⟨.inl hm.2, hprompt⟩, by rw [announcedBy, hm.2, hnil, List.append_nil]⟩

/-! ## Full fetches -/

/-- A full fetch that succeeds begins to make good what was lost, if the loop that applies is
there. -/
theorem Wired.repairing (h : r.Wired watch settings) {nodes : List Node} (hstep : Refreshed r r')
    (hnodes : r.nextDeeds .refresh = [.fetch nodes]) : r'.applying = .ended ∨
      r.registry.select settings.selection = nodes ∧ r'.syncs ≠ [] ∧
        r'.queues.Repairing (Roster.ofList nodes) r'.waiting r'.fetches (r'.unsent = []) := by
  obtain rfl := h.settings_eq
  cases hstep with
  | @fetch got hphase hopen hdue hquery halive hroom =>
    rw [nextDeeds_refresh_of_ok hphase hopen hquery] at hnodes
    cases hnodes
    refine .inr ⟨select_of_query hquery,
      List.append_ne_nil_of_right_ne_nil _ (List.cons_ne_nil _ _), ?_⟩
    rw [h.queues_fetch hphase hquery, h.ofList_of_query hquery]
    exact Queues.repairing_fetch (unsent_queues_of_running hphase) _
  | @wait got hphase hopen hdue hquery halive hfull =>
    rw [nextDeeds_refresh_of_ok hphase hopen hquery] at hnodes
    cases hnodes
    refine .inr ⟨select_of_query hquery, fun hnil => hfull ?_, ?_⟩
    · rw [show r.syncs = [] from hnil]
      decide
    · rw [h.queues_wait hquery, h.ofList_of_query hquery]
      exact r.queues.repairing_offer (List.cons_ne_nil _ _)
  | orphan hphase hopen hdue hquery hgone => exact .inl hgone
  | start hphase =>
    rw [nextDeeds_refresh_of_starting hphase] at hnodes
    cases hnodes
  | stop hphase hclosed =>
    rw [nextDeeds_of_closed hclosed] at hnodes
    cases hnodes
  | fail hphase hopen hdue hquery =>
    rw [nextDeeds_refresh_of_error hphase hopen hquery] at hnodes
    cases hnodes
  | deliver hphase | abandon hphase =>
    rw [nextDeeds_refresh_of_sending hphase] at hnodes
    cases hnodes

/-- What was applied when all that waited has been, as long as the registry does not change. -/
theorem Wired.exists_replayed (h : r.Wired watch settings) {fetched : Roster} {held : List Change}
    {fetches : Nat} {direct : Prop} (hrepairing : r.queues.Repairing fetched held fetches direct)
    {moves : List Move} (hquiet : ∀ op, .registry op ∈ moves → op.isChange = false)
    (halive : (r.follow moves).applying ≠ .ended)
    (hsent : (r.follow moves).fetches = fetches → (r.follow moves).unsent = [])
    (hsyncs : (r.follow moves).syncs = []) (hpending : (r.follow moves).pending = 0) :
    ∃ replayed, replayed <:+ held ∧
      (direct → (r.follow moves).fetches = fetches → replayed = held) ∧
      (r.follow moves).roster = replayed.foldl Roster.apply fetched := by
  obtain ⟨hkept, hprompt, hnil⟩ := h.lossless_of_quiet hquiet
  have hend := hrepairing.steps ((h.steps_follow hkept hprompt).resolve_left halive) hnil
  rcases hend.unsent_or_replayed with ⟨hcount, hsome⟩ | ⟨replayed, hsuffix, hall, hprojected⟩
  · refine absurd ?_ hsome
    rw [queues, hsent hcount, List.map_nil]
  · exact ⟨replayed, hsuffix, hall,
      (drained_queues hsyncs hpending).projected_eq.symm.trans hprojected⟩

/-- The loop that applies has begun when full node lists that waited are gone. -/
theorem applying_follow_ne_starting (hsome : r.syncs ≠ []) {moves : List Move}
    (hsyncs : (r.follow moves).syncs = []) : (r.follow moves).applying ≠ .starting := by
  intro hstarting
  obtain ⟨-, hprefix⟩ := prefix_syncs_follow moves hstarting
  rw [hsyncs, List.prefix_nil] at hprefix
  exact hsome hprefix

/-- What is known after a full fetch when what it brought and all that waited then has been
applied. -/
theorem follow_replays (hlaunch : l.resolver = .ok r) (before : List Move) {fetched : Resolver}
    {nodes : List Node} (hfetch : (r.follow before).refreshStep? = some fetched)
    (hnodes : (r.follow before).nextDeeds .refresh = [.fetch nodes]) (later : List Move)
    (hquiet : ∀ op, .registry op ∈ later → op.isChange = false) :
    let r' := fetched.follow later
    r'.closed = false → l.settings.answer.Survives r'.updates →
      (r'.fetches = fetched.fetches → r'.unsent = []) → r'.syncs = [] → r'.pending = 0 →
      (∃ replayed, replayed <:+ fetched.waiting ∧
        (fetched.unsent = [] → r'.fetches = fetched.fetches → replayed = fetched.waiting) ∧
        let known := replayed.foldl Roster.apply (Roster.ofList nodes)
        r'.nodes? = some known.toList ∧ r'.updates.head? = some known.addresses) ∧
      ((∀ id known, lastWord? id fetched.waiting = some known →
        (Roster.ofList nodes).get? id = known) →
        r'.nodes? = some nodes ∧ r'.updates.head? = some (nodes.map Node.address)) ∧
      (fetched.unsent = [] → r'.fetches = fetched.fetches → r'.nodes? = some nodes →
        ∀ id known, lastWord? id fetched.waiting = some known →
          (Roster.ofList nodes).get? id = known) := by
  intro r' hopen hanswer hsent hsyncs hpending
  have hstep := refreshed_of_refreshStep? hfetch
  have hbefore := wired_follow (Launch.wired hlaunch) before
  have hwired : fetched.Wired l.watch l.settings := (hbefore.refreshed hstep).1
  have hfaithful : r'.Faithful :=
    faithful_follow ((faithful_follow (Launch.faithful hlaunch) before).refreshed hstep) later
  have halive := hfaithful.applying_ne_ended hopen
    ((wired_follow hwired later).settings_eq ▸ hanswer)
  obtain ⟨hselect, hsome, hrepairing⟩ := (hbefore.repairing hstep hnodes).resolve_left fun hgone =>
    halive (applying_follow_of_ended hgone later)
  obtain ⟨replayed, hsuffix, hall, hroster⟩ :=
    hwired.exists_replayed hrepairing hquiet halive hsent hsyncs hpending
  have hknown : r'.nodes? = some r'.roster.toList := hfaithful.nodes?_eq hopen
  have hupdate : r'.updates.head? = some r'.roster.addresses :=
    hfaithful.head?_updates (applying_follow_ne_starting hsome hsyncs)
  have hlist : (Roster.ofList nodes).toList = nodes := by
    rw [← hselect, hbefore.followed.keyed.ofList_select, Registry.toList_roster]
  refine ⟨⟨replayed, hsuffix, hall, ?_, ?_⟩, fun hagree => ?_, fun hdirect hcount hsame => ?_⟩
  · rw [hknown, hroster]
  · rw [hupdate, hroster]
  · have hself :=
      Roster.foldl_apply_eq_self_of_suffix hsuffix (Roster.foldl_apply_eq_self_iff.mpr hagree)
    rw [hknown, hupdate, hroster, hself, Roster.addresses, hlist]
    exact ⟨rfl, rfl⟩
  · -- two rosters with the same list are the same, so replaying what waited changed nothing
    obtain rfl := hall hdirect hcount
    refine Roster.foldl_apply_eq_self_iff.mp ?_
    have hkeyed := Roster.keyed_ofList nodes
    refine (hkeyed.foldl_apply fetched.waiting).eq_of_toList_eq hkeyed ?_
    rw [hlist, ← hroster]
    exact Option.some.inj (hknown.symm.trans hsame)

/-- One node is lost by a watch that holds a single change, and a full fetch makes that good. -/
theorem follow_lossy_repaired :
    let node (id : String) : Node :=
      { id, service := "s", protocol := .grpc, host := "h", port := 1 }
    let l : Launch :=
      { watchBuffer := 1
        settings := ⟨⟨"s", .grpc, []⟩, 60000, by decide, fun _ _ => .accepted⟩
        before := []
        between := [] }
    let before : List Move :=
      [.step .apply, .step .refresh, .registry (.register 0 (node "a")),
        .registry (.register 0 (node "b")), .resolveNow]
    let later : List Move := [.step .apply, .step .apply]
    ∃ r fetched, l.resolver = .ok r ∧ (r.follow before).refreshStep? = some fetched ∧
      fetched.waiting = [.added (node "a")] ∧
      (fetched.follow later).nodes? = some [node "a", node "b"] := by
  intro node l before later
  obtain ⟨r, hlaunch, fetched, hfetch, hnodes, hwaiting, hopen, hanswer, hsent, hsyncs, hpending⟩ :
      ∃ r, l.resolver = .ok r ∧ ∃ fetched, (r.follow before).refreshStep? = some fetched ∧
        (r.follow before).nextDeeds .refresh = [.fetch [node "a", node "b"]] ∧
        fetched.waiting = [.added (node "a")] ∧ (fetched.follow later).closed = false ∧
        l.settings.answer.Survives (fetched.follow later).updates ∧
        (fetched.follow later).unsent = [] ∧
        (fetched.follow later).syncs = [] ∧ (fetched.follow later).pending = 0 :=
    ⟨_, rfl, _, rfl, by decide, by decide, by decide, by decide, by decide, by decide, by decide⟩
  obtain ⟨-, hagree, -⟩ := follow_replays hlaunch before hfetch hnodes later (by simp [later]) hopen
    hanswer (fun _ => hsent) hsyncs hpending
  refine ⟨r, fetched, hlaunch, hfetch, hwaiting, (hagree fun id known hknown => ?_).1⟩
  rw [hwaiting, lastWord?, lastWord?, Option.none_or, Change.says?_added] at hknown
  split at hknown
  next hid =>
    rw [← hid, ← Option.some.inj hknown]
    decide
  next => cases hknown

/-- A node that is not registered any more is known for good: the watch holds its registration and
lost its removal, and the registration is replayed on the fetched nodes, among which it is not. -/
theorem follow_lossy_stale :
    let node : Node := { id := "a", service := "s", protocol := .grpc, host := "h", port := 1 }
    let l : Launch :=
      { watchBuffer := 1
        settings := ⟨⟨"s", .grpc, []⟩, 60000, by decide, fun _ _ => .accepted⟩
        before := []
        between := [] }
    let before : List Move :=
      [.step .apply, .step .refresh, .registry (.register 0 node), .registry (.deregister "a"),
        .resolveNow]
    ∃ r fetched, l.resolver = .ok r ∧ (r.follow before).refreshStep? = some fetched ∧
      (r.follow before).nextDeeds .refresh = [.fetch []] ∧ fetched.unsent = [] ∧
      let r' := fetched.follow [.step .apply, .step .apply]
      r'.closed = false ∧ r'.syncs = [] ∧ r'.pending = 0 ∧
        r'.registry.select l.settings.selection = [] ∧
        r'.nodes? = some [node] ∧ r'.updates.head? = some [node.address] := by
  intro node l before
  exact ⟨_, _, rfl, rfl, by decide, by decide, by decide, by decide, by decide, by decide,
    by decide, by decide⟩

end Resolver

end RingRouting
