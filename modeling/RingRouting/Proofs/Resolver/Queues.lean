import RingRouting.Proofs.Resolver.Deeds

/-!
# The queues of a resolver over a registry

What a resolver over a watch will come to know is decided by a few things: the nodes that are
selected, the changes that wait in the watch, the full node lists that wait before them, the one
that does not fit there yet, and what was applied so far. Each move of a schedule does one of a few
things to these, as long as the watch loses nothing. Main statement: `Wired.steps_follow`, that a
schedule of the resolver is a run of its queues.
-/

namespace RingRouting

/-- Received is the oldest item. -/
theorem Mailbox.items_of_receive? {α : Type} {m rest : Mailbox α} {item : α}
    (h : m.receive? = some (item, rest)) : m.items = item :: rest.items := by
  unfold receive? at h
  split at h
  next => cases h
  next hitems =>
    cases h
    exact hitems

/-! ## Queues -/

/-- What decides what a resolver over a watch will come to know. -/
structure Queues where
  /-- The nodes that a full fetch would bring now. -/
  selected : Roster
  /-- The changes that wait in the watch, the oldest first. -/
  waiting : List Change
  /-- The full node lists that wait, the oldest first. -/
  syncs : List Roster
  /-- The full node list that was fetched and waits to be handed over. -/
  unsent : List Roster
  /-- What was applied so far. -/
  roster : Roster
  /-- How many full fetches there were. -/
  fetches : Nat

namespace Queues

/-- What can happen to the queues, with the changes of the selection that come with it. -/
inductive Step : Queues → List Change → Queues → Prop
  /-- The selection changes, and the watch loses nothing of it. No full node list that knows nothing
  of it has been fetched and not handed over. -/
  | hear (q : Queues) (cs : List Change) (hprompt : cs = [] ∨ q.unsent = []) :
      Step q cs { q with
        selected := cs.foldl Roster.apply q.selected, waiting := q.waiting ++ cs }
  /-- A full fetch fails. -/
  | miss (q : Queues) (hunsent : q.unsent = []) : Step q [] { q with fetches := q.fetches + 1 }
  /-- A full fetch succeeds. -/
  | fetch (q : Queues) (hunsent : q.unsent = []) :
      Step q [] { q with syncs := q.syncs ++ [q.selected], fetches := q.fetches + 1 }
  /-- A full fetch succeeds, and what it brings has to wait. -/
  | offer (q : Queues) (hunsent : q.unsent = []) :
      Step q [] { q with unsent := [q.selected], fetches := q.fetches + 1 }
  /-- The full node list that had to wait is handed over. -/
  | deliver {q : Queues} {nodes : Roster} (hunsent : q.unsent = [nodes]) :
      Step q [] { q with syncs := q.syncs ++ [nodes], unsent := [] }
  /-- The oldest full node list is applied. -/
  | replace {q : Queues} {nodes : Roster} {rest : List Roster} (hsyncs : q.syncs = nodes :: rest) :
      Step q [] { q with syncs := rest, roster := nodes }
  /-- The oldest change is applied, as no full node list waits. -/
  | change {q : Queues} {c : Change} {rest : List Change} (hsyncs : q.syncs = [])
      (hwaiting : q.waiting = c :: rest) :
      Step q [] { q with waiting := rest, roster := q.roster.apply c }

/-- Nothing happens that counts. -/
theorem step_refl (q : Queues) : Step q [] q := by
  have hstep := Step.hear q [] (.inl rfl)
  rwa [List.append_nil, List.foldl_nil] at hstep

/-- Steps one after the other, with all changes of the selection that come with them. -/
inductive Steps : Queues → List Change → Queues → Prop
  | refl (q : Queues) : Steps q [] q
  | cons {q q' q'' : Queues} {cs rest : List Change} (h : Step q cs q')
      (hrest : Steps q' rest q'') :
      Steps q (cs ++ rest) q''

/-- What will be known when all that waits has been applied, if nothing else happens. -/
def projected (q : Queues) : Roster :=
  q.waiting.foldl Roster.apply (q.syncs.getLast?.getD q.roster)

/-- A change that the watch keeps will be known. -/
theorem projected_hear (q : Queues) (cs : List Change) :
    ({ q with selected := cs.foldl Roster.apply q.selected, waiting := q.waiting ++ cs } :
      Queues).projected = cs.foldl Roster.apply q.projected :=
  List.foldl_append

/-- A full node list overtakes what waits in the watch, which is then replayed on it. -/
theorem projected_concat (q : Queues) (nodes : Roster) (unsent : List Roster) (fetches : Nat) :
    ({ q with syncs := q.syncs ++ [nodes], unsent, fetches } : Queues).projected =
      q.waiting.foldl Roster.apply nodes := by
  rw [projected, List.getLast?_concat, Option.getD_some]

/-- To apply the oldest full list does not change what will be known. -/
theorem projected_replace {q : Queues} {nodes : Roster} {rest : List Roster}
    (hsyncs : q.syncs = nodes :: rest) :
    ({ q with syncs := rest, roster := nodes } : Queues).projected = q.projected := by
  rw [projected, projected, hsyncs, List.getLast?_cons, Option.getD_some]

/-- Nor does it to apply the oldest change, with no full list before it. -/
theorem projected_change {q : Queues} {c : Change} {rest : List Change} (hsyncs : q.syncs = [])
    (hwaiting : q.waiting = c :: rest) :
    ({ q with waiting := rest, roster := q.roster.apply c } : Queues).projected = q.projected := by
  rw [projected, projected, hsyncs, hwaiting, List.foldl_cons]
  rfl

/-- The two queues are empty. -/
structure Drained (q : Queues) : Prop where
  waiting_eq : q.waiting = []
  syncs_eq : q.syncs = []

/-- With nothing waiting, what will be known is known. -/
theorem Drained.projected_eq {q : Queues} (h : q.Drained) : q.projected = q.roster := by
  rw [projected, h.waiting_eq, h.syncs_eq]
  rfl

end Queues

namespace Resolver

variable {r r' : Resolver} {watch : Nat} {settings : Settings}

/-- The changes that wait in the feed, the oldest first. -/
def waiting (r : Resolver) : List Change :=
  match r.feed with
  | .registry watch => r.registry.waiting watch
  | .manual m _ => m.items

/-- Pending is what waits in the feed. -/
theorem pending_eq (r : Resolver) : r.pending = r.waiting.length := by
  unfold pending waiting
  cases r.feed with
  | manual m ended => rfl
  | registry watch =>
    dsimp only [Registry.waiting]
    cases r.registry.mailbox? watch <;> rfl

/-- The nodes that a full fetch would bring now. -/
def selected (r : Resolver) : Roster :=
  r.registry.roster r.settings.selection

/-- The queues of a resolver over a watch. -/
def queues (r : Resolver) : Queues :=
  ⟨r.selected, r.waiting, r.syncs.map Roster.ofList, r.unsent.map Roster.ofList, r.roster,
    r.fetches⟩

/-- Both queues are empty if no list waits and nothing is pending. -/
theorem drained_queues (hsyncs : r.syncs = []) (hpending : r.pending = 0) : r.queues.Drained where
  waiting_eq := List.eq_nil_of_length_eq_zero (r.pending_eq ▸ hpending)
  syncs_eq := by rw [queues, hsyncs, List.map_nil]

/-- The changes of the selection that a move brings about. -/
def announced (r : Resolver) : Move → List Change
  | .registry op => r.registry.changes r.settings.selection op
  | _ => []

/-- The watch takes in all changes of the selection that a move brings about, and drops none of
them. -/
def Keeps (r : Resolver) (m : Move) : Prop :=
  match m with
  | .registry _ => (r.move m).waiting = r.waiting ++ r.announced m
  | _ => True

instance (r : Resolver) (m : Move) : Decidable (r.Keeps m) :=
  match m with
  | .registry _ => inferInstanceAs (Decidable (_ = _))
  | .push _ | .endWatch | .setOutage _ | .resolveNow | .close | .release | .clock _ | .step _ |
      .queue _ =>
    isTrue trivial

/-- The changes of the selection that moves bring about. -/
def announcedBy : Resolver → List Move → List Change
  | _, [] => []
  | r, m :: rest => r.announced m ++ (r.move m).announcedBy rest

/-- No change of the selection is lost on the way. -/
def Lossless : Resolver → List Move → Prop
  | _, [] => True
  | r, m :: rest => r.Keeps m ∧ (r.move m).Lossless rest

instance decidableLossless : (r : Resolver) → (moves : List Move) → Decidable (r.Lossless moves)
  | _, [] => isTrue trivial
  | r, m :: rest =>
    have := decidableLossless (r.move m) rest
    inferInstanceAs (Decidable (_ ∧ _))

/-- No change of the selection falls between a full fetch and the handing over of what it
brought. -/
def Prompt : Resolver → List Move → Prop
  | _, [] => True
  | r, m :: rest => (r.announced m = [] ∨ r.unsent = []) ∧ (r.move m).Prompt rest

instance decidablePrompt : (r : Resolver) → (moves : List Move) → Decidable (r.Prompt moves)
  | _, [] => isTrue trivial
  | r, m :: rest =>
    have := decidablePrompt (r.move m) rest
    inferInstanceAs (Decidable (_ ∧ _))

/-! ## Wires -/

/-- The resolver takes its changes from a watch that follows its own selection. -/
structure Wired (watch : Nat) (settings : Settings) (r : Resolver) : Prop where
  feed_eq : r.feed = .registry watch
  settings_eq : r.settings = settings
  followed : r.registry.Followed watch settings.selection

/-- What waits in the feed waits in the watch. -/
theorem Wired.waiting_eq (h : r.Wired watch settings) : r.waiting = r.registry.waiting watch := by
  rw [waiting, h.feed_eq]

theorem Wired.congr (h : r.Wired watch settings) (hfeed : r'.feed = r.feed)
    (hregistry : r'.registry = r.registry) (hsettings : r'.settings = r.settings) :
    r'.Wired watch settings where
  feed_eq := hfeed.trans h.feed_eq
  settings_eq := hsettings.trans h.settings_eq
  followed := hregistry ▸ h.followed

theorem Wired.stopApplying (h : r.Wired watch settings) : r.stopApplying.Wired watch settings := by
  simp only [Resolver.stopApplying, h.feed_eq]
  exact ⟨rfl, h.settings_eq, h.followed.unwatch⟩

/-- The queues stay as they are by a push, or the loop that applies ends. -/
theorem Wired.publish (h : r.Wired watch settings) :
    r.publish.Wired watch settings ∧
    (r.publish.applying = .ended ∨ r.publish.queues = r.queues) := by
  have hnoted : r.noteUpdate.Wired watch settings := h.congr rfl rfl rfl
  unfold Resolver.publish
  split
  next =>
    obtain ⟨registry, feed, hstop⟩ := exists_stopApplying r.noteUpdate
    exact ⟨hnoted.stopApplying, .inl (hstop ▸ rfl)⟩
  next => exact ⟨hnoted, .inr rfl⟩

/-- To apply a change changes what is known, unless the consumer crashes. -/
theorem Wired.apply (h : r.Wired watch settings) (c : Change) :
    (r.apply c).Wired watch settings ∧ ((r.apply c).applying = .ended ∨
      (r.apply c).queues = { r.queues with roster := r.roster.apply c }) := by
  have hwired : ({ r with roster := r.roster.apply c } : Resolver).Wired watch settings :=
    h.congr rfl rfl rfl
  exact hwired.publish

/-- To receive a change takes it out of the watch, and nothing else. -/
theorem Wired.receive? (h : r.Wired watch settings) {c : Change}
    (hreceive : r.receive? = some (c, r')) :
    r'.Wired watch settings ∧ r.waiting = c :: r'.waiting ∧
      r'.queues = { r.queues with waiting := r'.waiting } := by
  simp only [Resolver.receive?, h.feed_eq, Registry.receive?, Registry.mailbox?,
    Option.bind_eq_bind, Option.map_eq_some_iff, Option.bind_eq_some_iff] at hreceive
  obtain ⟨taken, ⟨-, ⟨w, hw, rfl⟩, ⟨item, m⟩, hm, htaken⟩, heq⟩ := hreceive
  cases htaken
  cases heq
  have hwired : ({ r with registry := r.registry.setMailbox watch m, feed := .registry watch } :
      Resolver).Wired watch settings :=
    ⟨rfl, h.settings_eq, h.followed.setMailbox hw m⟩
  have hopen : m.isOpen = true :=
    (Mailbox.isOpen_of_receive? hm).trans (Registry.isOpen_of_watch? hw).2
  have hleft : (r.registry.setMailbox watch m).watch? watch = some { w with mailbox := m } :=
    (Registry.watch?_setMailbox_self hw m).trans (if_pos hopen)
  refine ⟨hwired, ?_, rfl⟩
  rw [h.waiting_eq, hwired.waiting_eq, Registry.waiting_eq hw, Mailbox.items_of_receive? hm,
    Registry.waiting_eq hleft]

/-- What a step of the loop that applies does to the queues. -/
theorem Wired.applied (h : r.Wired watch settings) (hstep : Applied r r') :
    r'.Wired watch settings ∧ (r'.applying = .ended ∨ Queues.Step r.queues [] r'.queues) := by
  cases hstep with
  | start hphase =>
    have hrunning : ({ r with applying := .running } : Resolver).Wired watch settings :=
      h.congr rfl rfl rfl
    obtain ⟨hwired, hend | hqueues⟩ := hrunning.publish
    · exact ⟨hwired, .inl hend⟩
    · exact ⟨hwired, .inr (hqueues ▸ Queues.step_refl _)⟩
  | stop hphase hclosed =>
    obtain ⟨registry, feed, hstop⟩ := exists_stopApplying r
    exact ⟨h.stopApplying, .inl (hstop ▸ rfl)⟩
  | @replace nodes rest hphase hopen hsyncs =>
    have htaken : ({ r with syncs := rest } : Resolver).Wired watch settings := h.congr rfl rfl rfl
    obtain ⟨hwired, hend | hqueues⟩ := htaken.apply ⟨.sync, nodes⟩
    · exact ⟨hwired, .inl hend⟩
    · have hmap : r.queues.syncs = Roster.ofList nodes :: rest.map Roster.ofList := by
        rw [queues, hsyncs, List.map_cons]
      exact ⟨hwired, .inr (hqueues ▸ .replace hmap)⟩
  | @change received c hphase hopen hsyncs hreceive =>
    obtain ⟨hreceived, hwaiting, hsame⟩ := h.receive? hreceive
    obtain ⟨hwired, hend | hqueues⟩ := hreceived.apply c
    · exact ⟨hwired, .inl hend⟩
    · have hnil : r.queues.syncs = [] := by rw [queues, hsyncs, List.map_nil]
      have hroster : received.roster = r.queues.roster := congrArg (·.roster) hsame
      rw [hqueues, hsame, hroster]
      exact ⟨hwired, .inr (.change hnil hwaiting)⟩
  | exhaust => exact ⟨h.congr rfl rfl rfl, .inr (Queues.step_refl _)⟩

/-- A fetch that succeeds brings what is selected. -/
theorem select_of_query {registry : Registry} {outage : Option String} {s : Selection}
    {nodes : List Node} (h : query registry outage s = .ok nodes) : registry.select s = nodes := by
  unfold query at h
  split at h
  next => cases h
  next => exact Except.ok.inj h

/-- What a full fetch brings is what is selected. -/
theorem Wired.ofList_of_query (h : r.Wired watch settings) {nodes : List Node}
    (hquery : query r.registry r.outage r.settings.selection = .ok nodes) :
    Roster.ofList nodes = r.queues.selected := by
  rw [← select_of_query hquery, h.followed.keyed.ofList_select]
  rfl

/-- A full node list that is handed over waits behind the others. -/
theorem map_ofList_concat (r : Resolver) (nodes : List Node) :
    (r.syncs ++ [nodes]).map Roster.ofList = r.queues.syncs ++ [Roster.ofList nodes] := by
  rw [List.map_append, List.map_singleton]
  rfl

/-- The loop that refreshes has nothing to hand over while it waits. -/
theorem unsent_queues_of_running (hphase : r.refreshing = .running) : r.queues.unsent = [] := by
  rw [queues, unsent_of_running hphase, List.map_nil]

/-- What a full fetch does that is handed over at once. -/
theorem Wired.queues_fetch (h : r.Wired watch settings) (hphase : r.refreshing = .running)
    {nodes : List Node}
    (hquery : query r.registry r.outage r.settings.selection = .ok nodes) :
    ({ r.begun with
      fetches := r.fetches + 1, refreshing := .running, syncs := r.syncs ++ [nodes] } :
        Resolver).queues =
      { r.queues with
        syncs := r.queues.syncs ++ [r.queues.selected], fetches := r.fetches + 1 } := by
  rw [← h.ofList_of_query hquery, ← map_ofList_concat]
  show ({ r.queues with syncs := _, unsent := [], fetches := _ } : Queues) = _
  rw [← unsent_queues_of_running hphase]

/-- What a full fetch does that has to wait. -/
theorem Wired.queues_wait (h : r.Wired watch settings) {nodes : List Node}
    (hquery : query r.registry r.outage r.settings.selection = .ok nodes) :
    ({ r.begun with fetches := r.fetches + 1, refreshing := .sending nodes } : Resolver).queues =
      { r.queues with unsent := [r.queues.selected], fetches := r.fetches + 1 } := by
  rw [← h.ofList_of_query hquery]
  rfl

/-- What a step of the loop that refreshes does to the queues. -/
theorem Wired.refreshed (h : r.Wired watch settings) (hstep : Refreshed r r') :
    r'.Wired watch settings ∧ (r'.applying = .ended ∨ Queues.Step r.queues [] r'.queues) := by
  cases hstep with
  | fetch hphase hopen hdue hquery halive hroom =>
    refine ⟨h.congr rfl rfl rfl, .inr ?_⟩
    exact h.queues_fetch hphase hquery ▸ .fetch r.queues (unsent_queues_of_running hphase)
  | wait hphase hopen hdue hquery halive hfull =>
    refine ⟨h.congr rfl rfl rfl, .inr ?_⟩
    exact h.queues_wait hquery ▸ .offer r.queues (unsent_queues_of_running hphase)
  | @deliver nodes hphase halive hroom =>
    have hunsent : r.queues.unsent = [Roster.ofList nodes] := by
      rw [queues, unsent_of_sending hphase, List.map_singleton]
    have hqueues :
        ({ r with refreshing := .running, syncs := r.syncs ++ [nodes] } : Resolver).queues =
        { r.queues with syncs := r.queues.syncs ++ [Roster.ofList nodes], unsent := [] } := by
      rw [← map_ofList_concat]
      rfl
    exact ⟨h.congr rfl rfl rfl, .inr (hqueues ▸ .deliver hunsent)⟩
  | start hphase =>
    have hqueues : ({ r with
        refreshing := .running, deadline := r.now + r.settings.interval } : Resolver).queues =
        r.queues := by
      rw [queues, queues, unsent_of_starting hphase]
      rfl
    exact ⟨h.congr rfl rfl rfl, .inr (hqueues ▸ Queues.step_refl _)⟩
  | stop hphase hclosed =>
    have hqueues : ({ r with refreshing := .ended } : Resolver).queues = r.queues := by
      rw [queues, queues, unsent_of_running hphase]
      rfl
    exact ⟨h.congr rfl rfl rfl, .inr (hqueues ▸ Queues.step_refl _)⟩
  | fail hphase hopen hdue hquery =>
    exact ⟨h.congr rfl rfl rfl, .inr (.miss r.queues (unsent_queues_of_running hphase))⟩
  | orphan hphase hopen hdue hquery hgone => exact ⟨h.congr rfl rfl rfl, .inl hgone⟩
  | abandon hphase hgone => exact ⟨h.congr rfl rfl rfl, .inl hgone⟩

/-! ## Moves -/

/-- A move does to the queues what a step of them says, as long as the watch loses nothing. -/
theorem Wired.move (h : r.Wired watch settings) (m : Move) : (r.move m).Wired watch settings ∧
    (r.Keeps m → r.announced m = [] ∨ r.unsent = [] → (r.move m).applying = .ended ∨
      Queues.Step r.queues (r.announced m) (r.move m).queues) := by
  -- most moves leave the queues as they are
  have hsame (r' : Resolver) (hwired : r'.Wired watch settings) (hqueues : r'.queues = r.queues) :
      r'.Wired watch settings ∧ (True → ([] : List Change) = [] ∨ r.unsent = [] →
        r'.applying = .ended ∨ Queues.Step r.queues [] r'.queues) := by
    rw [hqueues]
    exact ⟨hwired, fun _ _ => .inr (Queues.step_refl _)⟩
  cases m with
  | registry op =>
    have hmove : r.move (.registry op) =
        { r with registry := r.registry.performBeside watch op } := by
      simp only [Resolver.move, h.feed_eq]
    obtain rfl := h.settings_eq
    have hannounced := h.followed.keyed.announced_performBeside (s := r.settings.selection) watch op
    rw [hmove]
    refine ⟨⟨h.feed_eq, h.settings_eq, hannounced.followed h.followed⟩,
      fun hkeeps hprompt => .inr ?_⟩
    simp only [Keeps, hmove] at hkeeps
    show Queues.Step r.queues (r.announced (.registry op)) { r.queues with
      selected := (r.registry.performBeside watch op).roster r.settings.selection
      waiting := ({ r with registry := r.registry.performBeside watch op } : Resolver).waiting }
    rw [hkeeps, hannounced.roster_eq]
    exact .hear r.queues _ (hprompt.imp_right fun hnone => by rw [queues, hnone, List.map_nil])
  | step l =>
    cases hstep : r.step? l with
    | none =>
      simp only [Resolver.move, hstep, Option.getD_none]
      exact hsame r h rfl
    | some next =>
      simp only [Resolver.move, hstep, Option.getD_some]
      cases l with
      | apply =>
        obtain ⟨hwired, hqueues⟩ := h.applied (applied_of_applyStep? hstep)
        exact ⟨hwired, fun _ _ => hqueues⟩
      | refresh =>
        obtain ⟨hwired, hqueues⟩ := h.refreshed (refreshed_of_refreshStep? hstep)
        exact ⟨hwired, fun _ _ => hqueues⟩
  | push | endWatch =>
    simp only [Resolver.move, perform, h.feed_eq]
    exact hsame r h rfl
  | resolveNow | close =>
    simp only [Resolver.move, perform]
    split
    next => exact hsame _ (h.congr rfl rfl rfl) rfl
    next => exact hsame r h rfl
  | setOutage | release | clock | queue => exact hsame _ (h.congr rfl rfl rfl) rfl

/-- The resolver stays wired, whatever moves are made. -/
theorem wired_follow (h : r.Wired watch settings) (moves : List Move) :
    (r.follow moves).Wired watch settings := by
  induction moves generalizing r with
  | nil => exact h
  | cons m rest ih => exact ih (h.move m).1

/-- A schedule of the resolver is a run of its queues, as long as the watch loses nothing, full node
lists are handed over promptly and the loop that applies goes on. -/
theorem Wired.steps_follow (h : r.Wired watch settings) {moves : List Move}
    (hkept : r.Lossless moves) (hprompt : r.Prompt moves) :
    (r.follow moves).applying = .ended ∨
      Queues.Steps r.queues (r.announcedBy moves) (r.follow moves).queues := by
  induction moves generalizing r with
  | nil => exact .inr (.refl _)
  | cons m rest ih =>
    obtain ⟨hwired, hstep⟩ := h.move m
    rcases hstep hkept.1 hprompt.1 with hend | hstep
    · exact .inl (applying_follow_of_ended hend rest)
    · exact (ih hwired hkept.2 hprompt.2).imp_right (.cons hstep)

/-! ## The beginning -/

theorem Launch.keyed_origin (l : Launch) : l.origin.Keyed :=
  (Registry.keyed_withWatchBuffer l.watchBuffer).foldl_perform l.before

/-- A watch that was opened for a resolver follows its selection. -/
theorem Launch.followed (l : Launch) : l.registry.Followed l.watch l.settings.selection :=
  (l.keyed_origin.followed_watch l.settings.selection).foldl_performBeside l.between

theorem Launch.wired {l : Launch} (hlaunch : l.resolver = .ok r) : r.Wired l.watch l.settings := by
  obtain rfl := Except.ok.inj hlaunch
  exact ⟨rfl, rfl, l.followed⟩

end Resolver

end RingRouting
