import RingRouting.Proofs.Registry.Streams

/-!
# Watches do not disturb each other

What a watch hands out depends on what is done to the nodes and on its own reader. Other watches may
be opened, read and closed: without them the registry has the same leases, and the watch is the
first one and the same. `Alike` says this of two registries, and each act keeps it. Main statement:
`watch_stream`, that a watch hands out the stream of its changes, whatever other watches there are.
-/

namespace RingRouting.Registry

/-- The same operation for a watch that is the only one, if it is not about another watch. -/
def Op.alone? (watch : Nat) : Op → Option Op
  | .watch _ => none
  | .receive reader => if reader = watch then some (.receive 0) else none
  | .drain reader => if reader = watch then some (.drain 0) else none
  | .unwatch reader => if reader = watch then some (.unwatch 0) else none
  | op => some op

/-- The same act for a watch that is the only one, if it is not about another watch. -/
def Act.alone? (watch : Nat) : Act → Option Act
  | .perform op => (op.alone? watch).map .perform
  | .sweep now ttl ids hids => some (.sweep now ttl ids hids)

variable {r q : Registry} {s : Selection} {watch : Nat} {a a' : Act}

/-! ## What comes from the leases alone -/

/-- The changes of a selection depend on the leases alone. -/
theorem raised_congr (h : q.leases = r.leases) (s : Selection) (a : Act) :
    q.raised s a = r.raised s a := by
  have hlapse (now ttl : Nat) : q.lapse? s now ttl = r.lapse? s now ttl := by
    funext id
    rw [lapse?, lapse?, h]
  cases a with
  | sweep now ttl ids => rw [raised, raised, hlapse]
  | perform op =>
    cases op with
    | expire now ttl => rw [raised, raised, hlapse, h]
    | register | deregister => simp only [raised, changes, h]
    | keepAlive | watch | receive | drain | unwatch => rfl

theorem leases_removeStale_congr (h : q.leases = r.leases) (now ttl : Nat) (ids : List String) :
    (q.removeStale now ttl ids).2.leases = (r.removeStale now ttl ids).2.leases := by
  induction ids generalizing r q with
  | nil => exact h
  | cons id rest ih =>
    unfold removeStale
    rw [h]
    cases r.leases[id]? with
    | none => exact ih h
    | some lease =>
      by_cases hstale : lease.isStale now ttl
      · simp only [hstale, if_true]
        exact ih (congrArg (·.erase id) h)
      · simp only [hstale]
        exact ih h

theorem leases_act_congr (h : q.leases = r.leases) (a : Act) :
    (q.act a).leases = (r.act a).leases := by
  cases a with
  | sweep now ttl ids => exact leases_removeStale_congr h now ttl ids
  | perform op =>
    cases op with
    | register now n =>
      show (q.register now n).leases = (r.register now n).leases
      rw [leases_register, leases_register, h]
    | keepAlive now id =>
      simp only [act, perform, keepAlive, h]
      cases r.leases[id]? with
      | none => exact h
      | some lease => rfl
    | deregister id =>
      simp only [act, perform, Registry.deregister, h]
      cases r.leases[id]? with
      | none => exact h
      | some lease => exact congrArg (·.erase id) h
    | expire now ttl =>
      have hids : q.staleIds now ttl = r.staleIds now ttl := by rw [staleIds, staleIds, h]
      show (q.removeStale now ttl (q.staleIds now ttl)).2.leases = _
      rw [hids]
      exact leases_removeStale_congr h now ttl _
    | watch => exact h
    | receive reader | drain reader | unwatch reader =>
      show (q.perform _).leases = (r.perform _).leases
      rw [leases_perform_of_reader q rfl, leases_perform_of_reader r rfl, h]

/-! ## An act seen from one watch -/

/-- What is done without the other watches is the same for the nodes and for the reader. -/
theorem alone_of_eq_some (ha : a.alone? watch = some a') :
    (∀ m, a'.read 0 m = a.read watch m) ∧ (∀ r s, raised r s a' = r.raised s a) ∧
      ∀ r : Registry, (r.act a').leases = (r.act a).leases := by
  cases a with
  | sweep now ttl ids hids =>
    obtain rfl := Option.some.inj ha
    exact ⟨fun _ => rfl, fun _ _ => rfl, fun _ => rfl⟩
  | perform op =>
    obtain ⟨op', hop', rfl⟩ := Option.map_eq_some_iff.mp ha
    cases op with
    | register | keepAlive | deregister | expire =>
      obtain rfl := Option.some.inj hop'
      exact ⟨fun _ => rfl, fun _ _ => rfl, fun _ => rfl⟩
    | watch => cases hop'
    | receive reader | drain reader | unwatch reader =>
      simp only [Op.alone?] at hop'
      split at hop'
      next heq =>
        subst heq
        obtain rfl := Option.some.inj hop'
        refine ⟨fun m => ?_, fun _ _ => rfl, fun r => ?_⟩
        · simp [Act.read, Op.reader?, Op.read]
        · show (r.perform _).leases = (r.perform _).leases
          rw [leases_perform_of_reader r rfl, leases_perform_of_reader r rfl]
      next => cases hop'

/-- What is left out is about another watch. -/
theorem other_of_eq_none (ha : a.alone? watch = none) :
    (∀ m, a.read watch m = ([], m)) ∧ (∀ r s, raised r s a = []) ∧
      ∀ r : Registry, (r.act a).leases = r.leases := by
  cases a with
  | sweep => cases ha
  | perform op =>
    have hop := Option.map_eq_none_iff.mp ha
    cases op with
    | register | keepAlive | deregister | expire => cases hop
    | watch => exact ⟨fun _ => rfl, fun _ _ => rfl, fun _ => rfl⟩
    | receive reader | drain reader | unwatch reader =>
      simp only [Op.alone?] at hop
      split at hop
      next => cases hop
      next hne =>
        refine ⟨fun m => if_neg fun heq => hne (Option.some.inj heq), fun _ _ => rfl, fun r => ?_⟩
        exact leases_perform_of_reader r rfl

/-! ## Two registries -/

/-- The second registry is the first one without the other watches: the watch is open and the same
in both, or gone in both. -/
structure Alike (watch : Nat) (r q : Registry) : Prop where
  keyed : r.Keyed
  leases_eq : q.leases = r.leases
  same : (∃ w, r.watch? watch = some w ∧ q.watch? 0 = some w) ∨ r.Gone watch ∧ q.Gone 0

/-- Nodes are kept in the second registry as in the first. -/
theorem Alike.keyed_alone (h : Alike watch r q) : q.Keyed := by
  intro id lease hlease
  rw [h.leases_eq] at hlease
  exact h.keyed id lease hlease

/-- The watch is the same in both. -/
theorem Alike.watch?_eq (h : Alike watch r q) : q.watch? 0 = r.watch? watch := by
  rcases h.same with ⟨w, hw, hw'⟩ | ⟨hgone, hgone'⟩
  · rw [hw, hw']
  · rw [hgone.watch?_eq, hgone'.watch?_eq]

/-- An act that is not about another watch does the same to both. -/
theorem Alike.act_of_some (h : Alike watch r q) (ha : a.alone? watch = some a') :
    Alike watch (r.act a) (q.act a') ∧ q.handed 0 a' = r.handed watch a := by
  obtain ⟨hread, hraised, hleases⟩ := alone_of_eq_some ha
  have hleases' : (q.act a').leases = (r.act a).leases := by
    rw [hleases, leases_act_congr h.leases_eq]
  rcases h.same with ⟨w, hw, hw'⟩ | ⟨hgone, hgone'⟩
  · obtain ⟨hact, hhanded⟩ := h.keyed.watch?_act hw a
    -- both watches are told the same, as the leases are the same, and are then read in the same way
    obtain ⟨hact', hhanded'⟩ := h.keyed_alone.watch?_act hw' a'
    rw [hread, hraised, raised_congr h.leases_eq] at hact' hhanded'
    refine ⟨⟨h.keyed.act a, hleases', ?_⟩, hhanded'.trans hhanded.symm⟩
    rcases (h.keyed.open_or_gone_act hw a).2 with hopen | hgone
    · exact .inl ⟨_, hopen, hact'.trans (hact.symm.trans hopen)⟩
    · refine .inr ⟨hgone, hact'.trans (hact.symm.trans hgone.watch?_eq), ?_⟩
      exact Nat.lt_of_lt_of_le (lt_opened_of_watch? hw') (q.watchBuffer_act a').2
  · obtain ⟨hact, hhanded⟩ := hgone.act h.keyed a
    obtain ⟨hact', hhanded'⟩ := hgone'.act h.keyed_alone a'
    exact ⟨⟨h.keyed.act a, hleases', .inr ⟨hact, hact'⟩⟩, hhanded'.trans hhanded.symm⟩

/-- An act about another watch can be left out. -/
theorem Alike.act_of_none (h : Alike watch r q) (ha : a.alone? watch = none) :
    Alike watch (r.act a) q ∧ r.handed watch a = [] := by
  obtain ⟨hread, hraised, hleases⟩ := other_of_eq_none ha
  have hleases' : q.leases = (r.act a).leases := h.leases_eq.trans (hleases r).symm
  rcases h.same with ⟨w, hw, hw'⟩ | ⟨hgone, hgone'⟩
  · obtain ⟨hact, hhanded⟩ := h.keyed.watch?_act hw a
    rw [hraised, List.foldl_nil, hread] at hact hhanded
    have hsame : (r.act a).watch? watch = some w := hact.trans (if_pos (isOpen_of_watch? hw).2)
    exact ⟨⟨h.keyed.act a, hleases', .inl ⟨w, hsame, hw'⟩⟩, hhanded⟩
  · obtain ⟨hact, hhanded⟩ := hgone.act h.keyed a
    exact ⟨⟨h.keyed.act a, hleases', .inr ⟨hact, hgone'⟩⟩, hhanded⟩

/-- Without what is done about other watches a watch hands out the same. -/
theorem Alike.after (h : Alike watch r q) (acts : List Act) :
    Alike watch (r.after acts) (q.after (acts.filterMap (·.alone? watch))) ∧
      q.delivered 0 (acts.filterMap (·.alone? watch)) = r.delivered watch acts := by
  induction acts generalizing r q with
  | nil => exact ⟨h, rfl⟩
  | cons a rest ih =>
    cases ha : a.alone? watch with
    | none =>
      obtain ⟨hact, hhanded⟩ := h.act_of_none ha
      obtain ⟨hafter, hdelivered⟩ := ih hact
      rw [List.filterMap_cons_none ha]
      refine ⟨hafter, ?_⟩
      rw [delivered, hhanded, List.nil_append, hdelivered]
    | some a' =>
      obtain ⟨hact, hhanded⟩ := h.act_of_some ha
      obtain ⟨hafter, hdelivered⟩ := ih hact
      rw [List.filterMap_cons_some ha]
      refine ⟨hafter, ?_⟩
      rw [delivered, delivered, hhanded, hdelivered]

/-! ## Before the watch is opened -/

/-- An act that a lone watch sees opens no watch. -/
theorem ne_watch_of_alone (ha : a.alone? watch = some a') (s : Selection) :
    a ≠ .perform (.watch s) ∧ a' ≠ .perform (.watch s) := by
  cases a with
  | sweep =>
    obtain rfl := Option.some.inj ha
    exact ⟨nofun, nofun⟩
  | perform op =>
    obtain ⟨op', hop', rfl⟩ := Option.map_eq_some_iff.mp ha
    cases op with
    | register | keepAlive | deregister | expire =>
      obtain rfl := Option.some.inj hop'
      exact ⟨nofun, nofun⟩
    | watch => cases hop'
    | receive reader | drain reader | unwatch reader =>
      simp only [Op.alone?] at hop'
      split at hop'
      next =>
        obtain rfl := Option.some.inj hop'
        exact ⟨nofun, nofun⟩
      next => cases hop'

/-- The second registry is the first one without any watch. -/
structure Unwatched (r q : Registry) : Prop where
  keyed : r.Keyed
  leases_eq : q.leases = r.leases
  watchBuffer_eq : q.watchBuffer = r.watchBuffer
  opened_eq : q.opened = 0

/-- Acts keep the registries so if those about watches are left out for the second. -/
theorem Unwatched.after (h : Unwatched r q) (watch : Nat) (acts : List Act) :
    Unwatched (r.after acts) (q.after (acts.filterMap (·.alone? watch))) := by
  induction acts generalizing r q with
  | nil => exact h
  | cons a rest ih =>
    cases ha : a.alone? watch with
    | none =>
      obtain ⟨-, -, hleases⟩ := other_of_eq_none ha
      rw [List.filterMap_cons_none ha]
      exact ih ⟨h.keyed.act a, h.leases_eq.trans (hleases r).symm,
        h.watchBuffer_eq.trans (r.watchBuffer_act a).1.symm, h.opened_eq⟩
    | some a' =>
      obtain ⟨-, -, hleases⟩ := alone_of_eq_some ha
      obtain ⟨hbuffer, hopened⟩ := q.sameWatches_act fun s => (ne_watch_of_alone ha s).2
      rw [List.filterMap_cons_some ha]
      refine ih ⟨h.keyed.act a, ?_, ?_, hopened.trans h.opened_eq⟩
      · rw [hleases, leases_act_congr h.leases_eq]
      · rw [hbuffer, h.watchBuffer_eq, (r.watchBuffer_act a).1]

/-- A watch that is opened is the first one where there are no others. -/
theorem Unwatched.opened (h : Unwatched r q) (s : Selection) :
    (q.watch s).1 = 0 ∧ Alike (r.watch s).1 (r.watch s).2 (q.watch s).2 := by
  have hopened := q.watch?_watch s
  rw [show (q.watch s).1 = 0 from h.opened_eq, h.watchBuffer_eq] at hopened
  exact ⟨h.opened_eq, h.keyed, h.leases_eq, .inl ⟨_, r.watch?_watch s, hopened⟩⟩

/-! ## The stream of a watch -/

/-- What an open watch has handed out, with what waits in it, is the stream of the changes of its
selection since it was opened, less those that were raised while it held as many as it may. It never
holds more. All of this is the same without the other watches and what is done about them. -/
theorem watch_stream (watchBuffer : Nat) (before : List Act) (s : Selection) (acts : List Act) :
    let r := (withWatchBuffer watchBuffer).after before
    let watch := (r.watch s).1
    let opened := (r.watch s).2
    let r' := opened.after acts
    let bound := max 1 watchBuffer
    let alone := (withWatchBuffer watchBuffer).after (before.filterMap (·.alone? watch))
    let acts' := acts.filterMap (·.alone? watch)
    ((r'.mailbox? watch).any (·.isOpen) = true →
      opened.delivered watch acts ++ r'.waiting watch = opened.streamed watch s bound acts) ∧
    (r'.waiting watch).length ≤ bound ∧
    (alone.watch s).1 = 0 ∧
    (alone.watch s).2.delivered 0 acts' = opened.delivered watch acts ∧
    ((alone.watch s).2.after acts').mailbox? 0 = r'.mailbox? watch := by
  intro r watch opened r' bound alone acts'
  have hkeyed : r.Keyed := (keyed_withWatchBuffer watchBuffer).after before
  have hunwatched : Unwatched r alone :=
    Unwatched.after ⟨keyed_withWatchBuffer watchBuffer, rfl, rfl, rfl⟩ watch before
  have hbuffer : r.watchBuffer = bound := watchBuffer_after _ before
  have hw : opened.watch? watch = some ⟨s, { capacity := bound }⟩ := hbuffer ▸ r.watch?_watch s
  have hopened : opened.Keyed := hkeyed
  obtain ⟨hfirst, halike⟩ := hunwatched.opened s
  obtain ⟨halike', hdelivered⟩ := halike.after acts
  refine ⟨fun hopen => ?_, ?_, hfirst, hdelivered, ?_⟩
  · refine hopened.delivered_append_waiting hw rfl acts fun hnone => ?_
    rw [mailbox?, hnone] at hopen
    cases hopen
  · rcases hopened.bounded_after hw ⟨rfl, Nat.zero_le _⟩ acts with ⟨w, hw', hbounded⟩ | hgone
    · exact waiting_eq hw' ▸ hbounded.length_le
    · rw [waiting_eq_nil hgone.watch?_eq]
      exact Nat.zero_le _
  · rw [mailbox?, mailbox?, halike'.watch?_eq]

/-- A watch with room for two changes: one node leaves by being registered anew, one joins while the
watch is full, one expires, and another watch is drained and closed meanwhile. -/
theorem watch_crowded_stream :
    let node (id : String) (tags : List String) : Node :=
      { id, service := "s", protocol := .grpc, host := "h", port := 1, tags }
    let s : Selection := ⟨"s", .grpc, ["t"]⟩
    let before : List Act :=
      [.perform (.register 0 (node "a" ["t"])), .perform (.watch ⟨"s", .grpc, []⟩)]
    let acts : List Act :=
      [.perform (.register 1 (node "b" ["t"])), .perform (.register 2 (node "a" [])),
        .perform (.register 3 (node "c" ["t"])), .perform (.drain 0), .perform (.unwatch 0),
        .perform (.receive 1), .perform (.keepAlive 9 "c"), .sweep 10 5 ["c", "b", "a"] (by decide)]
    let opened := (((withWatchBuffer 2).after before).watch s).2
    let r' := opened.after acts
    let stream : List Change :=
      [.added (node "b" ["t"]), .removed (node "a" ["t"]), .removed (node "b" ["t"])]
    (r'.mailbox? 1).any (·.isOpen) = true ∧ opened.delivered 1 acts = stream.take 1 ∧
      opened.delivered 1 acts ++ r'.waiting 1 = stream ∧ (r'.waiting 1).length ≤ 2 := by
  intro node s before acts opened r' stream
  have hopen : (r'.mailbox? 1).any (·.isOpen) = true := by decide
  obtain ⟨hstream, hlength, -⟩ := watch_stream 2 before s acts
  exact ⟨hopen, by decide, (hstream hopen).trans (by decide), hlength⟩

end RingRouting.Registry
