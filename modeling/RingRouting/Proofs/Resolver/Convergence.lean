import RingRouting.Proofs.Resolver.Queues

/-!
# Convergence

Full node lists overtake older changes, which are then replayed on newer nodes, and the first full
fetch comes after the watch was opened, so that it may know already what the watch brings later.
None of this does harm as long as the watch loses nothing and no change falls between a fetch and
the handing over of what it brought: what waits in the watch has been taken into account by every
fetch, so replaying it on what is selected changes nothing. Main statement: `follow_converges`; what
a list does that is handed over late is `follow_late_stale`.
-/

namespace RingRouting

/-! ## The queues -/

/-- Nothing stands in the way of convergence. -/
structure Queues.Converging (q : Queues) : Prop where
  /-- What waits in the watch says what is selected. -/
  stable : q.waiting.foldl Roster.apply q.selected = q.selected
  /-- What waits leads to what is selected. -/
  projected_eq : q.projected = q.selected
  /-- A full node list that is to be handed over is what is selected. -/
  unsent_eq : ∀ nodes ∈ q.unsent, nodes = q.selected

/-- No step stands in the way of convergence. -/
theorem Queues.Converging.step {q q' : Queues} {cs : List Change} (h : q.Converging)
    (hstep : Step q cs q') : q'.Converging := by
  cases hstep with
  | hear _ hprompt =>
    refine ⟨Roster.foldl_apply_append_eq_self h.stable, ?_, fun nodes hnodes => ?_⟩
    · rw [projected_hear, h.projected_eq]
    · rcases hprompt with rfl | hnone
      · exact h.unsent_eq nodes hnodes
      · exact absurd hnodes (hnone ▸ List.not_mem_nil)
  | miss => exact ⟨h.stable, h.projected_eq, h.unsent_eq⟩
  | fetch hunsent =>
    -- what is fetched overtakes what waits in the watch, but has taken it into account
    exact ⟨h.stable, (q.projected_concat ..).trans h.stable, h.unsent_eq⟩
  | offer => exact ⟨h.stable, h.projected_eq, fun _ hnodes => List.mem_singleton.mp hnodes⟩
  | deliver hunsent =>
    obtain rfl := h.unsent_eq _ (hunsent ▸ List.mem_cons_self)
    exact ⟨h.stable, (q.projected_concat ..).trans h.stable, nofun⟩
  | replace hsyncs =>
    exact ⟨h.stable, (projected_replace hsyncs).trans h.projected_eq, h.unsent_eq⟩
  | change hsyncs hwaiting =>
    refine ⟨?_, (projected_change hsyncs hwaiting).trans h.projected_eq, h.unsent_eq⟩
    exact Roster.foldl_apply_eq_self_of_suffix (hwaiting ▸ List.suffix_cons _ _) h.stable

theorem Queues.Converging.steps {q q' : Queues} {cs : List Change} (h : q.Converging)
    (hsteps : Steps q cs q') : q'.Converging := by
  induction hsteps with
  | refl => exact h
  | cons hstep _ ih => exact ih (h.step hstep)

namespace Resolver

/-! ## The beginning -/

/-- No change of the selection is lost between the opening of the watch and the first full fetch. -/
def Launch.Lossless (l : Launch) : Prop :=
  (l.origin.watch l.settings.selection).2.Lossless l.watch l.settings.selection l.between

instance (l : Launch) : Decidable l.Lossless :=
  inferInstanceAs (Decidable (Registry.Lossless ..))

variable {l : Launch} {r : Resolver}

/-- A resolver over a watch that lost nothing begins so. -/
theorem Launch.converging (hlaunch : l.resolver = .ok r) (hkept : l.Lossless) :
    r.queues.Converging := by
  have hstable :
      (l.registry.waiting l.watch).foldl Roster.apply (l.registry.roster l.settings.selection) =
      l.registry.roster l.settings.selection := by
    refine (l.keyed_origin.followed_watch l.settings.selection).foldl_waiting hkept ?_
    rw [Registry.waiting_watch]
    rfl
  -- what waits already is replayed on the nodes of the first full fetch, which know of it
  obtain rfl := Except.ok.inj hlaunch
  refine ⟨hstable, ?_, nofun⟩
  show (l.registry.waiting l.watch).foldl Roster.apply
    (Roster.ofList (l.registry.select l.settings.selection)) = _
  rw [l.followed.keyed.ofList_select]
  exact hstable

/-- However the loops and the changes of the registry are interleaved, a resolver whose watch lost
nothing knows the selected nodes when it has applied all that waits, provided that each full node
list is handed over before the selection changes again. -/
theorem follow_converges (hlaunch : l.resolver = .ok r) (hbetween : l.Lossless) (moves : List Move)
    (hkept : r.Lossless moves) (hprompt : r.Prompt moves) :
    let r' := r.follow moves
    r'.closed = false → l.settings.answer.Survives r'.updates →
      r'.syncs = [] → r'.pending = 0 →
      let nodes := r'.registry.select l.settings.selection
      r'.nodes? = some nodes ∧
        (r'.applying ≠ .starting → r'.updates.head? = some (nodes.map Node.address)) ∧
        nodes.Pairwise (·.id < ·.id) := by
  intro r' hopen hanswer hsyncs hpending nodes
  have hwired : r'.Wired l.watch l.settings := wired_follow (Launch.wired hlaunch) moves
  have hfaithful : r'.Faithful := faithful_follow (Launch.faithful hlaunch) moves
  have hconverging : r'.queues.Converging := by
    have halive := hfaithful.applying_ne_ended hopen (hwired.settings_eq ▸ hanswer)
    have hsteps := ((Launch.wired hlaunch).steps_follow hkept hprompt).resolve_left halive
    exact (Launch.converging hlaunch hbetween).steps hsteps
  have hroster : r'.roster.toList = nodes := by
    have heq : r'.roster = r'.selected :=
      (drained_queues hsyncs hpending).projected_eq.symm.trans hconverging.projected_eq
    rw [heq, selected, Registry.toList_roster, hwired.settings_eq]
  refine ⟨?_, fun hstarted => ?_, ?_⟩
  · rw [hfaithful.nodes?_eq hopen, hroster]
  · rw [hfaithful.head?_updates hstarted, Roster.addresses, hroster]
  · have hsorted := (hwired.followed.keyed.keyed_roster l.settings.selection).pairwise_toList
    rwa [Registry.toList_roster] at hsorted

/-- One node moves to another service and one leaves, while a full node list overtakes what the
watch says about them. The node that is left is known in the end. -/
theorem follow_overtaken_converges :
    let node (id service : String) : Node :=
      { id, service, protocol := .grpc, host := "h", port := 1 }
    let l : Launch :=
      { watchBuffer := 3
        settings := ⟨⟨"s", .grpc, []⟩, 60000, by decide, fun _ _ => .accepted⟩
        before := [.register 0 (node "a" "s"), .register 0 (node "c" "s")]
        between := [.register 0 (node "b" "s")] }
    let moves : List Move :=
      [.step .apply, .step .refresh, .registry (.register 1 (node "a" "t")), .resolveNow,
        .step .refresh, .registry (.deregister "b"), .step .apply, .step .apply, .step .apply,
        .step .apply]
    ∃ r, l.resolver = .ok r ∧ (r.follow moves).updates.length = 5 ∧
      (r.follow moves).nodes? = some [node "c" "s"] ∧
      (r.follow moves).updates.head? = some [(node "c" "s").address] := by
  intro node l moves
  refine ⟨_, rfl, by decide, ?_⟩
  obtain ⟨hnodes, hupdate, -⟩ :=
    follow_converges (l := l) rfl (by decide) moves (by decide) (by decide)
    (by decide) (by decide) (by decide) (by decide)
  exact ⟨hnodes.trans (by decide), (hupdate (by decide)).trans (by decide)⟩

/-- A full node list is fetched while four others wait, and a node is registered before it is handed
over. The loop that applies takes the new node first and then the old list, which does not know
it. -/
theorem follow_late_stale :
    let node : Node := { id := "a", service := "s", protocol := .grpc, host := "h", port := 1 }
    let l : Launch :=
      { watchBuffer := 3
        settings := ⟨⟨"s", .grpc, []⟩, 60000, by decide, fun _ _ => .accepted⟩
        before := []
        between := [] }
    let moves : List Move :=
      .step .refresh :: (List.replicate 5 [.resolveNow, .step .refresh]).flatten ++
        .registry (.register 0 node) :: List.replicate 6 (.step .apply) ++
          [.step .refresh, .step .apply]
    ∃ r, l.resolver = .ok r ∧ r.Lossless moves ∧
      let r' := r.follow moves
      r'.closed = false ∧ r'.syncs = [] ∧ r'.pending = 0 ∧ r'.unsent = [] ∧
        r'.registry.select l.settings.selection = [node] ∧ r'.nodes? = some [] := by
  intro node l moves
  exact ⟨_, rfl, by decide, by decide, by decide, by decide, by decide, by decide, by decide⟩

end Resolver

end RingRouting
