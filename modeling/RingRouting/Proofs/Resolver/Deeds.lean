import RingRouting.Proofs.Resolver.Consumer

/-!
# What the loops of a resolver do

In a step a loop may take a change out of the feed and apply it, apply a full node list, fetch one,
or fail to fetch one. What a schedule makes the loops do, in this order, accounts for all that the
consumer is given: one update at the start, one after each change or list that is applied, and one
report for each failed fetch. Main statement: `accounts_follow`.
-/

namespace RingRouting

/-- What a loop does in a step. -/
inductive Deed where
  /-- A change that was taken out of the feed is applied. -/
  | take (c : Change)
  /-- A full node list is applied. -/
  | replace (nodes : List Node)
  /-- A full node list is fetched. -/
  | fetch (nodes : List Node)
  /-- A full fetch fails. -/
  | fail (e : ResolutionError)
deriving DecidableEq

namespace Deed

/-- The change that was taken out of the feed. -/
def taken? : Deed → Option Change
  | take c => some c
  | replace _ | fetch _ | fail _ => none

/-- The full node list that was applied. -/
def replaced? : Deed → Option (List Node)
  | replace nodes => some nodes
  | take _ | fetch _ | fail _ => none

/-- The full node list that was fetched. -/
def fetched? : Deed → Option (List Node)
  | fetch nodes => some nodes
  | take _ | replace _ | fail _ => none

/-- Why a full fetch failed. -/
def failed? : Deed → Option ResolutionError
  | fail e => some e
  | take _ | replace _ | fetch _ => none

/-- What was applied, be it out of the feed or a full node list. -/
def applied? : Deed → Option Change
  | take c => some c
  | replace nodes => some ⟨.sync, nodes⟩
  | fetch _ | fail _ => none

/-- Applied were the changes that were taken and the lists that replaced all. -/
theorem length_applied (ds : List Deed) : (ds.filterMap applied?).length =
    (ds.filterMap taken?).length + (ds.filterMap replaced?).length := by
  induction ds with
  | nil => rfl
  | cons d rest ih =>
    cases d <;> simp [List.filterMap_cons, applied?, taken?, replaced?, ih] <;> omega

end Deed

namespace Resolver

variable {r r' : Resolver} {origin : Roster} {ds : List Deed}

/-- What a loop does in its next step, if it can go on. -/
def nextDeeds (r : Resolver) : Loop → List Deed
  | .apply =>
    if r.applying = .running ∧ r.closed = false then
      match r.syncs with
      | nodes :: _ => [.replace nodes]
      | [] => (r.receive?.map fun (c, _) => .take c).toList
    else []
  | .refresh =>
    if r.refreshing = .running ∧ r.closed = false then
      match query r.registry r.outage r.settings.selection with
      | .ok nodes => [.fetch nodes]
      | .error e => [.fail e]
    else []

/-- What a move makes the loops do. -/
def deeds (r : Resolver) : Move → List Deed
  | .step l => if (r.step? l).isSome then r.nextDeeds l else []
  | _ => []

/-- What moves one after the other make the loops do. -/
def deedsBy : Resolver → List Move → List Deed
  | _, [] => []
  | r, m :: rest => r.deeds m ++ (r.move m).deedsBy rest

/-- A closed resolver does nothing. -/
theorem nextDeeds_of_closed (hclosed : r.closed = true) (l : Loop) : r.nextDeeds l = [] := by
  cases l <;> exact if_neg fun h => Bool.false_ne_true (h.2.symm.trans hclosed)

/-- The first step of the loop that applies only pushes what is known. -/
theorem nextDeeds_apply_of_starting (hphase : r.applying = .starting) : r.nextDeeds .apply = [] :=
  if_neg fun h => Phase.noConfusion (hphase.symm.trans h.1)

/-- Only a loop that waits for its next fetch makes one. -/
theorem nextDeeds_refresh_of_ne (hphase : r.refreshing ≠ .running) : r.nextDeeds .refresh = [] :=
  if_neg fun h => hphase h.1

/-- The first step of the loop that refreshes only sets its clock. -/
theorem nextDeeds_refresh_of_starting (hphase : r.refreshing = .starting) :
    r.nextDeeds .refresh = [] :=
  nextDeeds_refresh_of_ne (hphase ▸ RefreshPhase.noConfusion)

/-- A step that hands a list over fetches nothing. -/
theorem nextDeeds_refresh_of_sending {nodes : List Node} (hphase : r.refreshing = .sending nodes) :
    r.nextDeeds .refresh = [] :=
  nextDeeds_refresh_of_ne (hphase ▸ RefreshPhase.noConfusion)

/-- A fetch that is due and succeeds. -/
theorem nextDeeds_refresh_of_ok (hphase : r.refreshing = .running) (hopen : r.closed = false)
    {nodes : List Node} (hquery : query r.registry r.outage r.settings.selection = .ok nodes) :
    r.nextDeeds .refresh = [.fetch nodes] := by
  rw [nextDeeds, if_pos ⟨hphase, hopen⟩, hquery]

/-- A fetch that is due and fails. -/
theorem nextDeeds_refresh_of_error (hphase : r.refreshing = .running) (hopen : r.closed = false)
    {e : ResolutionError} (hquery : query r.registry r.outage r.settings.selection = .error e) :
    r.nextDeeds .refresh = [.fail e] := by
  rw [nextDeeds, if_pos ⟨hphase, hopen⟩, hquery]

/-- A loop that cannot go on does nothing. -/
theorem move_step_of_eq_none {l : Loop} (h : r.step? l = none) :
    r.move (.step l) = r ∧ r.deeds (.step l) = [] := by
  simp [move, deeds, h]

/-- A loop that can go on makes its step. -/
theorem move_step_of_eq_some {l : Loop} (h : r.step? l = some r') :
    r.move (.step l) = r' ∧ r.deeds (.step l) = r.nextDeeds l := by
  simp [move, deeds, h]

/-! ## Accounts -/

/-- The full node list that the loop that refreshes has fetched and not handed over yet. -/
def unsent (r : Resolver) : List (List Node) :=
  match r.refreshing with
  | .sending nodes => [nodes]
  | .starting | .running | .ended => []

theorem unsent_of_sending {nodes : List Node} (hphase : r.refreshing = .sending nodes) :
    r.unsent = [nodes] := by
  rw [unsent, hphase]

theorem unsent_of_starting (hphase : r.refreshing = .starting) : r.unsent = [] := by
  rw [unsent, hphase]

theorem unsent_of_running (hphase : r.refreshing = .running) : r.unsent = [] := by
  rw [unsent, hphase]

/-- The deeds of the loops account for what the consumer was given and for what waits, from `origin`
on, which is what the first full fetch brought. -/
structure Accounts (origin : Roster) (ds : List Deed) (r : Resolver) : Prop where
  fetches_eq :
    r.fetches = 1 + (ds.filterMap Deed.fetched?).length + (ds.filterMap Deed.failed?).length
  errors_eq : r.errors.reverse = ds.filterMap Deed.failed?
  roster_eq : r.roster = (ds.filterMap Deed.applied?).foldl Roster.apply origin
  /-- Nothing is pushed or applied until the loop that applies has begun. -/
  unstarted : r.applying = .starting → r.updates = [] ∧ ds.filterMap Deed.applied? = []
  /-- Each update is what was known after a change or list that was applied. -/
  updates_eq : r.applying ≠ .starting → r.updates.reverse =
    ((ds.filterMap Deed.applied?).scanl Roster.apply origin).map Roster.addresses
  /-- What was fetched was applied or waits, in this order. -/
  fetched_eq : r.applying ≠ .ended →
    ds.filterMap Deed.fetched? = ds.filterMap Deed.replaced? ++ (r.syncs ++ r.unsent)

/-- What the accounts say of the updates and of what waits while the loop that applies runs. -/
theorem Accounts.of_running (h : Accounts origin ds r) (hphase : r.applying = .running) :
    r.updates.reverse = ((ds.filterMap Deed.applied?).scanl Roster.apply origin).map
      Roster.addresses ∧
      ds.filterMap Deed.fetched? = ds.filterMap Deed.replaced? ++ (r.syncs ++ r.unsent) :=
  ⟨h.updates_eq (hphase ▸ Phase.noConfusion), h.fetched_eq (hphase ▸ Phase.noConfusion)⟩

/-- A push changes what the consumer was given, and may end the loop that applies. -/
theorem exists_publish (r : Resolver) : ∃ applying syncs registry feed,
    r.publish = { r.noteUpdate with applying, syncs, registry, feed } ∧
      (applying = .ended ∨ applying = r.applying ∧ syncs = r.syncs) := by
  unfold publish
  split
  next =>
    obtain ⟨registry, feed, hstop⟩ := exists_stopApplying r.noteUpdate
    exact ⟨_, _, registry, feed, hstop, .inl rfl⟩
  next => exact ⟨_, _, _, _, rfl, .inr ⟨rfl, rfl⟩⟩

/-- The account stays even when what was applied is published. -/
theorem accounts_publish (hphase : r.applying = .running)
    (hfetches :
      r.fetches = 1 + (ds.filterMap Deed.fetched?).length + (ds.filterMap Deed.failed?).length)
    (herrors : r.errors.reverse = ds.filterMap Deed.failed?)
    (hroster : r.roster = (ds.filterMap Deed.applied?).foldl Roster.apply origin)
    (hupdates : r.updates.reverse ++ [r.roster.addresses] =
      ((ds.filterMap Deed.applied?).scanl Roster.apply origin).map Roster.addresses)
    (hfetched : ds.filterMap Deed.fetched? = ds.filterMap Deed.replaced? ++ (r.syncs ++ r.unsent)) :
    Accounts origin ds r.publish := by
  obtain ⟨applying, syncs, registry, feed, hpublish, hcase⟩ := r.exists_publish
  have hstarted : applying ≠ .starting := by
    rcases hcase with rfl | ⟨rfl, -⟩
    · exact Phase.noConfusion
    · exact hphase ▸ Phase.noConfusion
  rw [hpublish]
  -- a push that the consumer does not survive ends the loop, and nothing is said of what waits then
  refine ⟨hfetches, herrors, hroster, fun h => absurd h hstarted, fun _ => ?_, fun h => ?_⟩
  · rw [← hupdates]
    exact List.reverse_cons
  · rcases hcase with hend | ⟨-, hsyncs⟩
    · exact absurd hend h
    · exact hsyncs ▸ hfetched

/-- What the loop that applies does when it applies a change or a full node list. -/
theorem Accounts.push (h : Accounts origin ds r) (hphase : r.applying = .running) {d : Deed}
    {c : Change}
    (hd : d.applied? = some c) {syncs : List (List Node)} (registry : Registry) (feed : Feed)
    (hsyncs : r.syncs = d.replaced?.toList ++ syncs) :
    Accounts origin (ds ++ [d]) (({ r with registry, feed, syncs } : Resolver).apply c) := by
  have hnew : d.fetched? = none ∧ d.failed? = none := by
    cases d with
    | take | replace => exact ⟨rfl, rfl⟩
    | fetch | fail => cases hd
  have happlied : (ds ++ [d]).filterMap Deed.applied? = ds.filterMap Deed.applied? ++ [c] := by
    simp [hd]
  have hroster :
      r.roster.apply c = ((ds ++ [d]).filterMap Deed.applied?).foldl Roster.apply origin := by
    rw [happlied, List.foldl_append, List.foldl_cons, List.foldl_nil, h.roster_eq]
  obtain ⟨hupdates, hfetched⟩ := h.of_running hphase
  refine accounts_publish hphase ?_ ?_ hroster ?_ ?_
  · simpa [List.filterMap_cons, hnew] using h.fetches_eq
  · simpa [List.filterMap_cons, hnew] using h.errors_eq
  · rw [happlied, List.scanl_append, List.map_append, ← hupdates, ← h.roster_eq]
    rfl
  · rw [hsyncs] at hfetched
    cases d with
    | take | replace =>
      simpa [List.filterMap_cons, Deed.fetched?, Deed.replaced?, unsent] using hfetched
    | fetch | fail => cases hd

/-- A step of the loop that applies keeps the account even. -/
theorem Accounts.applied (h : Accounts origin ds r) (hstep : Applied r r') :
    Accounts origin (ds ++ r.nextDeeds .apply) r' := by
  cases hstep with
  | start hphase =>
    obtain ⟨hupdates, happlied⟩ := h.unstarted hphase
    rw [nextDeeds_apply_of_starting hphase, List.append_nil]
    refine accounts_publish rfl h.fetches_eq h.errors_eq h.roster_eq ?_ ?_
    · simp [hupdates, happlied, h.roster_eq]
    · exact h.fetched_eq (by rw [hphase]; exact Phase.noConfusion)
  | stop hphase hclosed =>
    obtain ⟨registry, feed, hstop⟩ := exists_stopApplying r
    rw [nextDeeds_of_closed hclosed, List.append_nil, hstop]
    obtain ⟨hupdates, -⟩ := h.of_running hphase
    exact { h with
      unstarted := nofun
      updates_eq := fun _ => hupdates
      fetched_eq := fun hend => absurd rfl hend }
  | @replace nodes rest hphase hopen hsyncs =>
    have hdeeds : r.nextDeeds .apply = [.replace nodes] := by
      simp [nextDeeds, hphase, hopen, hsyncs]
    rw [hdeeds]
    exact h.push (d := .replace nodes) hphase rfl r.registry r.feed hsyncs
  | @change _ c hphase hopen hsyncs hreceive =>
    have hdeeds : r.nextDeeds .apply = [.take c] := by
      simp [nextDeeds, hphase, hopen, hsyncs, hreceive]
    obtain ⟨registry, feed, rfl⟩ := exists_receive? hreceive
    rw [hdeeds]
    exact h.push (d := .take c) hphase rfl registry feed rfl
  | exhaust hphase hopen hsyncs hreceive =>
    have hnone : r.nextDeeds .apply = [] := by simp [nextDeeds, hsyncs, hreceive]
    rw [hnone, List.append_nil]
    exact { h with }

/-- What the loop that refreshes does when it fetches a full node list or fails to. -/
theorem Accounts.note (h : Accounts origin ds r) (hphase : r.refreshing = .running) {d : Deed}
    (hd : d.applied? = none) {syncs : List (List Node)} {refreshing : RefreshPhase}
    (hsyncs : r.applying ≠ .ended →
      syncs ++ ({ r with refreshing } : Resolver).unsent = r.syncs ++ d.fetched?.toList) :
    Accounts origin (ds ++ [d]) { r.begun with
      refreshing, syncs, fetches := r.fetches + 1, errors := d.failed?.toList ++ r.errors } := by
  have hnone : r.unsent = [] := unsent_of_running hphase
  have happlied : (ds ++ [d]).filterMap Deed.applied? = ds.filterMap Deed.applied? := by
    simp [hd]
  refine ⟨?_, ?_, happlied ▸ h.roster_eq, happlied ▸ h.unstarted, happlied ▸ h.updates_eq,
    fun halive => ?_⟩
  · cases d with
    | take | replace => cases hd
    | fetch | fail => simp [List.filterMap_cons, Deed.fetched?, Deed.failed?, h.fetches_eq]; omega
  · cases d with
    | take | replace => cases hd
    | fetch | fail => simp [List.filterMap_cons, Deed.failed?, ← h.errors_eq]
  · cases d with
    | take | replace => cases hd
    | fetch | fail =>
      have hwaiting := hsyncs halive
      simp only [unsent] at hwaiting ⊢
      simp [List.filterMap_cons, Deed.fetched?, Deed.replaced?, hwaiting, h.fetched_eq halive,
        hnone]

theorem Accounts.refreshed (h : Accounts origin ds r) (hstep : Refreshed r r') :
    Accounts origin (ds ++ r.nextDeeds .refresh) r' := by
  cases hstep with
  | start hphase =>
    rw [nextDeeds_refresh_of_starting hphase, List.append_nil]
    refine { h with fetched_eq := fun halive => ?_ }
    rw [h.fetched_eq halive, unsent_of_starting hphase]
    rfl
  | stop hphase hclosed =>
    rw [nextDeeds_of_closed hclosed, List.append_nil]
    refine { h with fetched_eq := fun halive => ?_ }
    rw [h.fetched_eq halive, unsent_of_running hphase]
    rfl
  | @fetch nodes hphase hopen hdue hquery halive hroom =>
    rw [nextDeeds_refresh_of_ok hphase hopen hquery]
    exact h.note hphase (d := .fetch nodes) rfl fun _ => List.append_nil _
  | @wait nodes hphase hopen hdue hquery halive hfull =>
    rw [nextDeeds_refresh_of_ok hphase hopen hquery]
    exact h.note hphase (d := .fetch nodes) rfl fun _ => rfl
  | @orphan nodes hphase hopen hdue hquery hgone =>
    rw [nextDeeds_refresh_of_ok hphase hopen hquery]
    exact h.note hphase (d := .fetch nodes) rfl fun halive => absurd hgone halive
  | @fail e hphase hopen hdue hquery =>
    rw [nextDeeds_refresh_of_error hphase hopen hquery]
    have hunsent : r.syncs ++ r.unsent = r.syncs ++ [] := congrArg _ (unsent_of_running hphase)
    exact h.note hphase (d := .fail e) rfl fun _ => hunsent
  | @deliver nodes hphase halive hroom =>
    -- what waited to be handed over waits to be applied now
    rw [nextDeeds_refresh_of_sending hphase, List.append_nil]
    refine { h with fetched_eq := fun halive => ?_ }
    rw [h.fetched_eq halive, unsent_of_sending hphase]
    exact congrArg _ (List.append_nil _).symm
  | @abandon nodes hphase hgone =>
    rw [nextDeeds_refresh_of_sending hphase, List.append_nil]
    exact { h with fetched_eq := fun halive => absurd hgone halive }

/-! ## Schedules -/

/-- Only steps of the loops do anything. -/
theorem deeds_eq_nil (r : Resolver) {m : Move} (hm : ∀ l, m ≠ .step l) : r.deeds m = [] := by
  cases m with
  | step l => exact absurd rfl (hm l)
  | registry | push | endWatch | setOutage | resolveNow | close | release | clock | queue => rfl

/-- Every move keeps the account even. -/
theorem Accounts.move (h : Accounts origin ds r) (m : Move) :
    Accounts origin (ds ++ r.deeds m) (r.move m) := by
  by_cases hm : ∃ l, m = .step l
  · obtain ⟨l, rfl⟩ := hm
    cases hstep : r.step? l with
    | none =>
      obtain ⟨hmove, hdeeds⟩ := move_step_of_eq_none hstep
      rw [hmove, hdeeds, List.append_nil]
      exact h
    | some next =>
      obtain ⟨hmove, hdeeds⟩ := move_step_of_eq_some hstep
      rw [hmove, hdeeds]
      cases l with
      | apply => exact h.applied (applied_of_applyStep? hstep)
      | refresh => exact h.refreshed (refreshed_of_refreshStep? hstep)
  · obtain ⟨registry, feed, outage, now, requests, closed, held, ready, heq, -⟩ :=
      r.exists_move_eq (not_exists.mp hm)
    rw [r.deeds_eq_nil (not_exists.mp hm), List.append_nil, heq]
    exact { h with }

/-- What the loops did along a schedule accounts for what the consumer was given. -/
theorem accounts_follow (h : Accounts origin ds r) (moves : List Move) :
    Accounts origin (ds ++ r.deedsBy moves) (r.follow moves) := by
  induction moves generalizing r ds with
  | nil =>
    rw [deedsBy, List.append_nil]
    exact h
  | cons m rest ih =>
    rw [deedsBy, ← List.append_assoc]
    exact ih (h.move m)

/-- The account is opened with the first full fetch. -/
theorem accounts_ofFeed {settings : Settings} {feed : Feed} {registry : Registry}
    {outage : Option String} (hstart : ofFeed settings feed registry outage = .ok r) :
    Accounts r.roster [] r := by
  obtain ⟨nodes, rfl⟩ := exists_of_ofFeed hstart
  exact ⟨rfl, rfl, rfl, fun _ => ⟨rfl, rfl⟩, fun h => absurd rfl h, fun _ => rfl⟩

end Resolver

end RingRouting
