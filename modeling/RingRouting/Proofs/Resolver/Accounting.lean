import RingRouting.Proofs.Resolver.Deeds
import RingRouting.Proofs.Resolver.Rest

/-!
# The accounts of a resolver

What the consumer of an open resolver was given by the time both loops are at rest: one update at
the start, one for each change that was taken out of the feed and one for each full node list that
was fetched, each with all that was known then; and one report for each fetch that failed. The
`Accounts` of the schedule say what was pushed and what waits; at rest nothing waits. What the
consumer makes of an update does not come into it: `follow_withAnswer` compares the same schedule
under two consumers, step by step. Main statement: `follow_accounts`.
-/

namespace RingRouting.Resolver

variable {r r' : Resolver}

/-! ## What stays -/

/-- No move changes what the resolver is to do, or takes an update back. -/
theorem Moved.keeps (hmoved : Moved r r') : r'.settings = r.settings ∧
    r.updates <:+ r'.updates := by
  have hpublish (r₁ : Resolver) (hsettings : r₁.settings = r.settings)
      (hupdates : r₁.updates = r.updates) :
      r₁.publish.settings = r.settings ∧ r.updates <:+ r₁.publish.updates := by
    obtain ⟨_, _, _, _, hpublish, -⟩ := r₁.exists_publish
    rw [hpublish, ← hupdates]
    exact ⟨hsettings, List.suffix_cons _ _⟩
  cases hmoved with
  | apply hstep =>
    cases hstep with
    | start | replace => exact hpublish _ rfl rfl
    | stop =>
      obtain ⟨registry, feed, hstop⟩ := exists_stopApplying r
      exact hstop ▸ ⟨rfl, List.suffix_rfl⟩
    | change hphase hopen hsyncs hreceive =>
      obtain ⟨registry, feed, rfl⟩ := exists_receive? hreceive
      exact hpublish _ rfl rfl
    | exhaust => exact ⟨rfl, List.suffix_rfl⟩
  | refresh hstep => cases hstep <;> exact ⟨rfl, List.suffix_rfl⟩
  | outside => exact ⟨rfl, List.suffix_rfl⟩

/-- Settings stay, and what the consumer was given is added to, by induction over the moves. -/
theorem keeps_follow (r : Resolver) (moves : List Move) :
    (r.follow moves).settings = r.settings ∧ r.updates <:+ (r.follow moves).updates := by
  induction moves generalizing r with
  | nil => exact ⟨rfl, List.suffix_rfl⟩
  | cons m rest ih =>
    obtain ⟨hsettings, hupdates⟩ := (r.moved_move m).keeps
    obtain ⟨hsettings', hupdates'⟩ := ih (r.move m)
    exact ⟨hsettings'.trans hsettings, hupdates.trans hupdates'⟩

/-! ## What the consumer answers -/

/-- The same resolver with a consumer that answers otherwise. -/
def withAnswer (r : Resolver) (answer : Consumer) : Resolver :=
  { r with settings := { r.settings with answer } }

variable {answer : Consumer}

/-- Neither consumer crashes on what it was given. -/
def Borne (answer : Consumer) (r : Resolver) : Prop :=
  r.settings.answer.Survives r.updates ∧ answer.Survives r.updates

/-- A publication that both consumers bear is the same for both. -/
theorem Borne.publish_withAnswer (h : r.publish.Borne answer) :
    (r.withAnswer answer).publish = r.publish.withAnswer answer := by
  obtain ⟨_, _, _, _, hpublish, -⟩ := r.exists_publish
  obtain ⟨hanswer, hanswer'⟩ : r.settings.answer r.updates r.roster.addresses ≠ .crashed ∧
      answer r.updates r.roster.addresses ≠ .crashed := by
    rw [hpublish] at h
    exact ⟨h.1.1, h.2.1⟩
  rw [publish, publish, if_neg hanswer]
  exact if_neg hanswer'

/-- What is received does not depend on the consumer. -/
theorem receive?_withAnswer (r : Resolver) (answer : Consumer) :
    (r.withAnswer answer).receive? = r.receive?.map fun (c, r) => (c, r.withAnswer answer) := by
  unfold receive?
  cases hfeed : r.feed <;> simp [withAnswer, hfeed, Function.comp_def]

theorem stopApplying_withAnswer (r : Resolver) (answer : Consumer) :
    (r.withAnswer answer).stopApplying = r.stopApplying.withAnswer answer := by
  unfold stopApplying
  cases hfeed : r.feed <;> simp [withAnswer, hfeed]

/-- A step of the loop that applies is the same for both. -/
theorem applyStep?_withAnswer (h : ∀ next, r.applyStep? = some next → next.Borne answer) :
    (r.withAnswer answer).applyStep? = r.applyStep?.map (·.withAnswer answer) := by
  have hreceive := r.receive?_withAnswer answer
  have hphase : (r.withAnswer answer).applying = r.applying := rfl
  have hclosed : (r.withAnswer answer).closed = r.closed := rfl
  have hsyncs : (r.withAnswer answer).syncs = r.syncs := rfl
  have hopen : (r.withAnswer answer).watchOpen = r.watchOpen := rfl
  have hended : (r.withAnswer answer).feedEnded = r.feedEnded := rfl
  simp only [applyStep?, hphase, hclosed, hsyncs, hopen, hreceive, hended] at h ⊢
  revert h
  cases r.applying with
  | starting =>
    intro h
    exact congrArg some (Borne.publish_withAnswer (h _ rfl))
  | ended => exact fun _ => rfl
  | running =>
    cases r.closed with
    | true => exact fun _ => congrArg some (r.stopApplying_withAnswer answer)
    | false =>
      cases r.syncs with
      | cons nodes rest => exact fun h => congrArg some (Borne.publish_withAnswer (h _ rfl))
      | nil =>
        cases r.watchOpen with
        | false => exact fun _ => rfl
        | true =>
          cases r.receive? with
          | some taken => exact fun h => congrArg some (Borne.publish_withAnswer (h _ rfl))
          | none => cases r.feedEnded <;> exact fun _ => rfl

/-- A full node list is handed over whatever the consumer answers. -/
theorem handOver_withAnswer (r : Resolver) (nodes : List Node) (answer : Consumer) :
    (r.withAnswer answer).handOver nodes = (r.handOver nodes).withAnswer answer := by
  have hphase : (r.withAnswer answer).applying = r.applying := rfl
  have hsyncs : (r.withAnswer answer).syncs = r.syncs := rfl
  unfold handOver
  rw [hphase, hsyncs]
  split
  next => rfl
  next => split <;> rfl

theorem refetch_withAnswer (r : Resolver) (answer : Consumer) :
    (r.withAnswer answer).refetch = r.refetch.withAnswer answer := by
  have hquery : query (r.withAnswer answer).registry (r.withAnswer answer).outage
      (r.withAnswer answer).settings.selection = query r.registry r.outage r.settings.selection :=
      rfl
  unfold refetch
  rw [hquery]
  cases query r.registry r.outage r.settings.selection with
  | error e => rfl
  | ok nodes => exact handOver_withAnswer { r with fetches := r.fetches + 1 } nodes answer

/-- The loop that refreshes never sees the consumer. -/
theorem refreshStep?_withAnswer (r : Resolver) (answer : Consumer) :
    (r.withAnswer answer).refreshStep? = r.refreshStep?.map (·.withAnswer answer) := by
  have hphase : (r.withAnswer answer).refreshing = r.refreshing := rfl
  have hclosed : (r.withAnswer answer).closed = r.closed := rfl
  have hdue : (r.withAnswer answer).deadline ≤ (r.withAnswer answer).now ↔ r.deadline ≤ r.now :=
    Iff.rfl
  have hrequests : 0 < (r.withAnswer answer).requests ↔ 0 < r.requests := Iff.rfl
  have happlying : (r.withAnswer answer).applying = r.applying := rfl
  have hsyncs : (r.withAnswer answer).syncs = r.syncs := rfl
  simp only [refreshStep?, hphase, hclosed, hdue, hrequests, happlying, hsyncs]
  cases r.refreshing with
  | starting => rfl
  | ended => rfl
  | sending nodes =>
    by_cases hgo : r.applying = .ended ∨ r.syncs.length < syncCapacity
    · simp only [hgo, if_true]
      exact congrArg some (handOver_withAnswer { r with refreshing := .sending nodes } nodes answer)
    · simp only [hgo, if_false]
      rfl
  | running =>
    cases r.closed with
    | true => rfl
    | false =>
      by_cases hdue : r.deadline ≤ r.now
      · simp only [hdue, if_true]
        exact congrArg some (refetch_withAnswer { r with
          refreshing := .running, closed := false, deadline := r.now + r.settings.interval
          requests := min r.requests 1 } answer)
      · by_cases hrequests : 0 < r.requests
        · simp only [hdue, hrequests, if_true, if_false]
          exact congrArg some (refetch_withAnswer { r with
            refreshing := .running, closed := false, deadline := r.now + r.settings.interval
            requests := r.requests - 1 } answer)
        · simp only [hdue, hrequests, if_false]
          rfl

/-- A move that both consumers bear is the same for both. -/
theorem move_withAnswer (m : Move) (h : (r.move m).Borne answer) :
    (r.withAnswer answer).move m = (r.move m).withAnswer answer := by
  -- only a step of the loop that applies asks the consumer
  cases m with
  | step l =>
    have hstep : (r.withAnswer answer).step? l = (r.step? l).map (·.withAnswer answer) := by
      cases l with
      | apply =>
        refine applyStep?_withAnswer fun next hnext => ?_
        have hmove : r.move (.step .apply) = next := by
          simp only [move, step?, hnext, Option.getD_some]
        exact hmove ▸ h
      | refresh => exact r.refreshStep?_withAnswer answer
    simp only [move, hstep]
    cases r.step? l <;> rfl
  | registry | endWatch =>
    simp only [move, perform]
    cases hfeed : r.feed <;> simp only [withAnswer, hfeed]
  | push =>
    simp only [move, perform]
    cases hfeed : r.feed with
    | registry watch => simp only [withAnswer, hfeed]
    | manual m ended => cases ended <;> simp only [withAnswer, hfeed]
  | resolveNow | close =>
    simp only [move, perform]
    cases hheld : r.held <;> simp [withAnswer, hheld]
  | release | setOutage | clock | queue => rfl

/-- What the consumer makes of an update changes nothing, unless it crashes. -/
theorem follow_withAnswer (moves : List Move) (h : (r.follow moves).Borne answer) :
    (r.withAnswer answer).follow moves = (r.follow moves).withAnswer answer := by
  induction moves generalizing r with
  | nil => rfl
  | cons m rest ih =>
    have hmove : (r.move m).Borne answer := by
      obtain ⟨hsettings, hupdates⟩ := (r.move m).keeps_follow rest
      exact ⟨hsettings ▸ h.1.of_suffix hupdates, h.2.of_suffix hupdates⟩
    show ((r.withAnswer answer).move m).follow rest = ((r.move m).follow rest).withAnswer answer
    rw [move_withAnswer m hmove]
    exact ih h

/-! ## The accounts -/

/-- A failed fetch is reported, and what was applied and pushed stays. -/
theorem exists_move_of_fail {e : ResolutionError} (h : r.deeds (.step .refresh) = [.fail e]) :
    ∃ deadline requests fetches, r.move (.step .refresh) =
      { r with deadline, requests, fetches, errors := e :: r.errors } := by
  cases hstep : r.step? .refresh with
  | none =>
    rw [(move_step_of_eq_none hstep).2] at h
    cases h
  | some next =>
    obtain ⟨hmove, hdeeds⟩ := move_step_of_eq_some hstep
    rw [hdeeds] at h
    rw [hmove]
    cases refreshed_of_refreshStep? hstep with
    | start hphase =>
      rw [nextDeeds_refresh_of_starting hphase] at h
      cases h
    | stop hphase hclosed =>
      rw [nextDeeds_of_closed hclosed] at h
      cases h
    | fetch hphase hopen hdue hquery | wait hphase hopen hdue hquery
    | orphan hphase hopen hdue hquery =>
      rw [nextDeeds_refresh_of_ok hphase hopen hquery] at h
      cases h
    | deliver hphase | abandon hphase =>
      rw [nextDeeds_refresh_of_sending hphase] at h
      cases h
    | fail hphase hopen hdue hquery =>
      rw [nextDeeds_refresh_of_error hphase hopen hquery] at h
      cases h
      exact ⟨_, _, _, rfl⟩

/-- All that was known on the way is kept under its identities. -/
theorem keyed_scanl {known : Roster} (hknown : known.Keyed) (cs : List Change) :
    ∀ later ∈ cs.scanl Roster.apply known, later.Keyed := by
  induction cs generalizing known with
  | nil => simpa using hknown
  | cons c rest ih =>
    intro later hlater
    rw [List.scanl_cons, List.mem_cons] at hlater
    rcases hlater with rfl | hlater
    · exact hknown
    · exact ih (hknown.apply c) later hlater

/-- Once nothing waits for the loop that applies, each full node list that was fetched is one that
was applied, and so there is an update for each of them, for each change, and for the start. -/
theorem Accounts.balanced {origin : Roster} {ds : List Deed} (h : Accounts origin ds r)
    (hphase : r.applying = .running) (hsyncs : r.syncs = []) (hunsent : r.unsent = []) :
    ds.filterMap Deed.replaced? = ds.filterMap Deed.fetched? ∧
      r.updates.length = 1 + (ds.filterMap Deed.taken?).length +
        (ds.filterMap Deed.fetched?).length := by
  obtain ⟨hupdates, hfetched⟩ := h.of_running hphase
  rw [hsyncs, hunsent, List.append_nil, List.append_nil] at hfetched
  have hlength := congrArg List.length hupdates
  rw [List.length_reverse, List.length_map, List.length_scanl, Deed.length_applied, ← hfetched]
    at hlength
  exact ⟨hfetched.symm, by omega⟩

variable {settings : Settings} {feed : Feed} {registry : Registry} {outage : Option String}

/-- An open resolver at rest has given its consumer one update at the start, one for each change
that was taken out of the feed and one for each full node list that was fetched: what was known
after it, in full and in order. A failed fetch is reported once and changes nothing else, and what
the consumer makes of an update changes nothing. -/
theorem follow_accounts (hstart : ofFeed settings feed registry outage = .ok r)
    (moves : List Move) :
    let r' := r.follow moves
    let ds := r.deedsBy moves
    let rosters := (ds.filterMap Deed.applied?).scanl Roster.apply r.roster
    r'.closed = false → settings.answer.Survives r'.updates →
      r'.AtRest →
      (r'.updates.length =
          1 + (ds.filterMap Deed.taken?).length + (ds.filterMap Deed.fetched?).length ∧
        ds.filterMap Deed.replaced? = ds.filterMap Deed.fetched?) ∧
      (r'.updates.reverse = rosters.map Roster.addresses ∧
        ∀ known ∈ rosters, known.toList.Pairwise (·.id < ·.id)) ∧
      r'.nodes? = rosters.getLast?.map Roster.toList ∧
      (r'.fetches = 1 + (ds.filterMap Deed.fetched?).length + r'.errors.length ∧
        r'.errors.reverse = ds.filterMap Deed.failed?) ∧
      (∀ before after e, moves = before ++ .step .refresh :: after →
        (r.follow before).deeds (.step .refresh) = [.fail e] →
        let s := r.follow before
        let s' := s.move (.step .refresh)
        s'.errors = e :: s.errors ∧ s'.roster = s.roster ∧ s'.snapshot = s.snapshot ∧
          s'.updates = s.updates) ∧
      ∀ answer : Consumer, answer.Survives r'.updates →
        (r.withAnswer answer).follow moves = r'.withAnswer answer := by
  intro r' ds rosters hopen hanswer hrest
  have hsettings : r'.settings = settings := by
    obtain ⟨nodes, rfl⟩ := exists_of_ofFeed hstart
    exact (keeps_follow _ moves).1
  have hfaithful : r'.Faithful := faithful_follow (faithful_ofFeed hstart) moves
  have haccounts : Accounts r.roster ds r' := accounts_follow (accounts_ofFeed hstart) moves
  have halive : r'.applying ≠ .ended := hfaithful.applying_ne_ended hopen (hsettings ▸ hanswer)
  obtain ⟨hphase, hsyncs⟩ := running_of_rest halive hopen (hrest .apply)
  have hunsent : r'.unsent = [] := by
    cases hrefreshing : r'.refreshing with
    | sending nodes => exact absurd hrefreshing (hrest.not_sending nodes)
    | starting | running | ended => rw [unsent, hrefreshing]
  obtain ⟨hfetched, hlength⟩ := haccounts.balanced hphase hsyncs hunsent
  refine ⟨⟨hlength, hfetched⟩, ⟨?_, fun known hknown => ?_⟩, ?_, ⟨?_, haccounts.errors_eq⟩, ?_, ?_⟩
  · exact (haccounts.of_running hphase).1
  · obtain ⟨nodes, rfl⟩ := exists_of_ofFeed hstart
    exact (keyed_scanl (Roster.keyed_ofList nodes) _ known hknown).pairwise_toList
  · rw [hfaithful.nodes?_eq hopen, List.getLast?_scanl, haccounts.roster_eq]
    rfl
  · rw [haccounts.fetches_eq, ← haccounts.errors_eq, List.length_reverse]
  · intro before after e _ hfail s s'
    obtain ⟨deadline, requests, fetches, hmove⟩ := exists_move_of_fail hfail
    have hs' : s' = { s with deadline, requests, fetches, errors := e :: s.errors } := hmove
    rw [hs']
    exact ⟨rfl, rfl, rfl, rfl⟩
  · intro answer hanswer'
    exact follow_withAnswer moves ⟨hsettings ▸ hanswer, hanswer'⟩

/-- A change is taken out of a feed that then ends, one full fetch fails, and the next brings
another node. The consumer rejects every list that is not empty. -/
theorem follow_rejected_accounts :
    let node (id : String) : Node :=
      { id, service := "s", protocol := .grpc, host := "h", port := 1 }
    let settings : Settings := ⟨⟨"s", .grpc, []⟩, 60000, by decide,
      fun _ addresses => if addresses.isEmpty then .accepted else .rejected⟩
    let moves : List Move :=
      [.step .apply, .step .refresh, .push (.added (node "b")), .endWatch, .setOutage (some "down"),
        .resolveNow, .step .refresh, .step .apply, .step .apply, .registry (.register 0 (node "a")),
        .setOutage none, .clock 60000, .step .refresh, .step .apply]
    ∃ r, ofFeed settings (.manual { capacity := 1 } false) {} none = .ok r ∧
      let r' := r.follow moves
      r.deedsBy moves = [.fail (.query "s" "down"), .take (.added (node "b")), .fetch [node "a"],
        .replace [node "a"]] ∧
      r'.updates.length = 3 ∧ r'.fetches = 3 ∧
      r'.updates.reverse = [[], [(node "b").address], [(node "a").address]] ∧
      r'.nodes? = some [node "a"] := by
  intro node settings moves
  refine ⟨_, rfl, by decide, ?_⟩
  have hstart : ofFeed settings (.manual { capacity := 1 } false) {} none = .ok _ := rfl
  obtain ⟨⟨hlength, -⟩, ⟨hupdates, -⟩, hnodes, ⟨hfetches, -⟩, -⟩ :=
    follow_accounts hstart moves (by decide) (by decide) (by intro l; cases l <;> decide)
  exact ⟨hlength.trans (by decide), hfetches.trans (by decide), hupdates.trans (by decide),
    hnodes.trans (by decide)⟩

end RingRouting.Resolver
