import RingRouting.Proofs.Resolver.Deeds
import RingRouting.Proofs.Resolver.Rest

/-!
# The end of a resolver

A closed resolver does nothing any more, whatever waits for its loops and whatever else happens: no
change is applied, no fetch begun, nothing reported. Each loop sees in its next step that the
resolver is closed, and ends; only the loop that applies makes its first push before it looks, and
the loop that refreshes first gets rid of a list that it has to hand over, or waits with it until
the other loop has ended. `Final` says what is left alone, with the first push counted from the
start, so that it cannot come twice. Main statement: `follow_close_final`.
-/

namespace RingRouting

/-- How many more steps the loop that applies makes at most once the resolver is closed. -/
def Phase.stepsLeft : Phase → Nat
  | .starting => 2
  | .running => 1
  | .ended => 0

/-- How many more steps the loop that refreshes makes at most once the resolver is closed. -/
def RefreshPhase.stepsLeft : RefreshPhase → Nat
  | .starting => 2
  | .running => 1
  | .sending _ => 2
  | .ended => 0

namespace Resolver

variable {r r' r'' : Resolver}

/-- A step of that loop. -/
def Move.isStep (l : Loop) : Move → Bool
  | .step l' => l' = l
  | _ => false

/-- How many more steps a loop makes at most once the resolver is closed. -/
def stepsLeft (r : Resolver) : Loop → Nat
  | .apply => r.applying.stepsLeft
  | .refresh => r.refreshing.stepsLeft

/-- A loop of a closed resolver has two steps at most to make. -/
theorem stepsLeft_le (r : Resolver) (l : Loop) : r.stepsLeft l ≤ 2 := by
  cases l with
  | apply =>
    rw [stepsLeft]
    cases r.applying <;> decide
  | refresh =>
    rw [stepsLeft]
    cases r.refreshing <;> simp [RefreshPhase.stepsLeft]

/-- A loop that has none to make has ended. -/
theorem phase_eq_ended_of_stepsLeft {l : Loop} (h : r.stepsLeft l = 0) : r.phase l = .ended := by
  cases l with
  | apply =>
    rw [stepsLeft] at h
    rw [phase]
    cases hphase : r.applying with
    | starting | running => simp [hphase, Phase.stepsLeft] at h
    | ended => rfl
  | refresh =>
    rw [stepsLeft] at h
    rw [phase]
    cases hphase : r.refreshing with
    | starting | running | sending => simp [hphase, RefreshPhase.stepsLeft] at h
    | ended => rfl

theorem stepsLeft_eq_zero {l : Loop} (h : r.phase l = .ended) : r.stepsLeft l = 0 := by
  cases l with
  | apply => rw [stepsLeft, show r.applying = .ended from h, Phase.stepsLeft]
  | refresh =>
    rw [phase] at h
    rw [stepsLeft]
    cases hphase : r.refreshing with
    | starting | running | sending => simp [hphase, RefreshPhase.phase] at h
    | ended => rfl

/-- The loop does not have to wait for the other one. -/
def Unhindered (r : Resolver) (l : Loop) : Prop :=
  l = .apply ∨ r.unsent = [] ∨ r.applying = .ended

instance (r : Resolver) (l : Loop) : Decidable (r.Unhindered l) :=
  inferInstanceAs (Decidable (_ ∨ _ ∨ _))

/-- A loop that does not have to wait for the other is not stuck. -/
theorem Unhindered.not_stuck {l : Loop} (h : r.Unhindered l) : ¬ (l = .refresh ∧ r.Stuck) := by
  rintro ⟨rfl, ⟨nodes, hphase⟩, halive, -⟩
  rcases h with hother | hnone | hgone
  · cases hother
  · rw [unsent_of_sending hphase] at hnone
    cases hnone
  · exact halive hgone

/-- What the consumer was given and, if the loop that applies has not begun, what it pushes
first. -/
def promised (r : Resolver) : List (List Address) :=
  if r.applying = .starting then r.roster.addresses :: r.updates else r.updates

/-- How a closed resolver goes on. -/
structure Final (r r' : Resolver) : Prop where
  closed : r'.closed = true
  roster_eq : r'.roster = r.roster
  fetches_eq : r'.fetches = r.fetches
  errors_eq : r'.errors = r.errors
  promised_eq : r'.promised = r.promised

theorem Final.refl (hclosed : r.closed = true) : Final r r :=
  ⟨hclosed, rfl, rfl, rfl, rfl⟩

theorem Final.trans (h : Final r r') (h' : Final r' r'') : Final r r'' where
  closed := h'.closed
  roster_eq := h'.roster_eq.trans h.roster_eq
  fetches_eq := h'.fetches_eq.trans h.fetches_eq
  errors_eq := h'.errors_eq.trans h.errors_eq
  promised_eq := h'.promised_eq.trans h.promised_eq

/-! ## One step -/

/-- A step of the loop that applies brings it nearer to its end, and applies nothing. -/
theorem final_of_applied (hclosed : r.closed = true) (h : Applied r r') :
    Final r r' ∧ r'.stepsLeft .apply < r.stepsLeft .apply ∧ r'.refreshing = r.refreshing := by
  cases h with
  | start hphase =>
    obtain ⟨applying, syncs, registry, feed, hpublish, hcase⟩ :=
      ({ r with applying := .running } : Resolver).exists_publish
    obtain ⟨hbegun, hleft⟩ : applying ≠ .starting ∧ applying.stepsLeft < 2 := by
      rcases hcase with rfl | ⟨rfl, -⟩
      · exact ⟨Phase.noConfusion, Nat.zero_lt_two⟩
      · exact ⟨Phase.noConfusion, Nat.one_lt_two⟩
    rw [hpublish, stepsLeft, stepsLeft, hphase]
    refine ⟨⟨hclosed, rfl, rfl, rfl, ?_⟩, hleft, rfl⟩
    rw [promised, promised, if_pos hphase]
    exact if_neg hbegun
  | stop hphase =>
    obtain ⟨registry, feed, hstop⟩ := exists_stopApplying r
    rw [hstop, stepsLeft, stepsLeft, hphase]
    refine ⟨⟨hclosed, rfl, rfl, rfl, ?_⟩, Nat.zero_lt_one, rfl⟩
    rw [promised, promised, hphase]
    rfl
  | replace hphase hopen | change hphase hopen | exhaust hphase hopen =>
    -- the loop looks at the close before it looks at anything that waits
    rw [hclosed] at hopen
    cases hopen

/-- So it is with a step of the loop that refreshes, which fetches nothing. -/
theorem final_of_refreshed (hclosed : r.closed = true) (h : Refreshed r r') :
    Final r r' ∧ r'.stepsLeft .refresh < r.stepsLeft .refresh ∧ r'.applying = r.applying ∧
      r'.unsent = [] := by
  cases h with
  | start hphase =>
    rw [stepsLeft, stepsLeft, hphase]
    exact ⟨⟨hclosed, rfl, rfl, rfl, rfl⟩, Nat.one_lt_two, rfl, rfl⟩
  | stop hphase =>
    rw [stepsLeft, stepsLeft, hphase]
    exact ⟨⟨hclosed, rfl, rfl, rfl, rfl⟩, Nat.zero_lt_one, rfl, rfl⟩
  | deliver hphase =>
    -- what is handed over now is not applied any more
    rw [stepsLeft, stepsLeft, hphase]
    exact ⟨⟨hclosed, rfl, rfl, rfl, rfl⟩, Nat.one_lt_two, rfl, rfl⟩
  | abandon hphase =>
    rw [stepsLeft, stepsLeft, hphase]
    exact ⟨⟨hclosed, rfl, rfl, rfl, rfl⟩, Nat.zero_lt_two, rfl, rfl⟩
  | fetch hphase hopen | wait hphase hopen | orphan hphase hopen | fail hphase hopen =>
    rw [hclosed] at hopen
    cases hopen

/-- A step of a loop after the close only brings its end nearer, and does not hold up the other. -/
theorem final_of_step? (hclosed : r.closed = true) {l : Loop} (h : r.step? l = some r') :
    Final r r' ∧ r'.stepsLeft l < r.stepsLeft l ∧ (∀ l' ≠ l, r'.stepsLeft l' = r.stepsLeft l') ∧
      ∀ l', r.Unhindered l' → r'.Unhindered l' := by
  cases l with
  | apply =>
    have happlied : Applied r r' := applied_of_applyStep? h
    obtain ⟨hfinal, hleft, hother⟩ := final_of_applied hclosed happlied
    refine ⟨hfinal, hleft, fun l' hl' => ?_, fun l' => Or.imp_right (Or.imp (fun hnone => ?_)
      (Moved.apply happlied).applying_eq_ended)⟩
    · cases l' with
      | apply => exact absurd rfl hl'
      | refresh => rw [stepsLeft, stepsLeft, hother]
    · rw [unsent, hother]
      exact hnone
  | refresh =>
    obtain ⟨hfinal, hleft, hother, hnone⟩ :=
      final_of_refreshed hclosed (refreshed_of_refreshStep? h)
    refine ⟨hfinal, hleft, fun l' hl' => ?_, fun l' => Or.imp_right fun _ => .inl hnone⟩
    cases l' with
    | apply => rw [stepsLeft, stepsLeft, hother]
    | refresh => exact absurd rfl hl'

/-- After the close each step of a loop brings its end nearer, and nothing else happens. -/
theorem final_move (hclosed : r.closed = true) (m : Move) :
    Final r (r.move m) ∧ ∀ l, r.Unhindered l → (r.move m).Unhindered l ∧
      (r.move m).stepsLeft l ≤ r.stepsLeft l - if m.isStep l then 1 else 0 := by
  by_cases hm : ∃ l, m = .step l
  · obtain ⟨l, rfl⟩ := hm
    simp only [move, Move.isStep, decide_eq_true_eq]
    cases hstep : r.step? l with
    | none =>
      refine ⟨.refl hclosed, fun l' hfree => ⟨hfree, ?_⟩⟩
      dsimp only [Option.getD_none]
      split
      next heq =>
        subst heq
        have hended :=
          ((step?_eq_none_iff_of_closed hclosed l).mp hstep).resolve_right hfree.not_stuck
        have hzero := stepsLeft_eq_zero hended
        omega
      next => exact Nat.le_refl _
    | some next =>
      obtain ⟨hfinal, hleft, hother, hfree⟩ := final_of_step? hclosed hstep
      refine ⟨hfinal, fun l' h => ⟨hfree l' h, ?_⟩⟩
      dsimp only [Option.getD_some]
      split
      next heq =>
        subst heq
        omega
      next hne =>
        rw [hother l' (Ne.symm hne)]
        exact Nat.le_refl _
  · have hnone (l : Loop) : m.isStep l = false := by
      cases m with
      | step l => exact absurd ⟨l, rfl⟩ hm
      | registry | push | endWatch | setOutage | resolveNow | close | release | clock | queue => rfl
    obtain ⟨registry, feed, outage, now, requests, closed, held, ready, heq, hclosed', -⟩ :=
      r.exists_move_eq (not_exists.mp hm)
    rw [heq]
    refine ⟨⟨hclosed' hclosed, rfl, rfl, rfl, rfl⟩, fun l hfree => ⟨hfree, ?_⟩⟩
    rw [hnone l]
    cases l <;> exact Nat.le_refl _

/-- The loops of a closed resolver do nothing. -/
theorem deeds_eq_nil_of_closed (hclosed : r.closed = true) (m : Move) : r.deeds m = [] := by
  cases m with
  | step l =>
    rw [deeds, nextDeeds_of_closed hclosed]
    split <;> rfl
  | registry | push | endWatch | setOutage | resolveNow | close | release | clock | queue => rfl

/-! ## Schedules -/

/-- After the close nothing happens along a schedule, except that the loops end. -/
theorem final_follow (hclosed : r.closed = true) (moves : List Move) :
    Final r (r.follow moves) ∧ r.deedsBy moves = [] ∧
      ∀ l, r.Unhindered l → (r.follow moves).Unhindered l ∧
        (r.follow moves).stepsLeft l ≤ r.stepsLeft l - moves.countP (·.isStep l) := by
  induction moves generalizing r with
  | nil => exact ⟨.refl hclosed, rfl, fun l hfree => ⟨hfree, Nat.le_refl _⟩⟩
  | cons m rest ih =>
    obtain ⟨hmove, hleft⟩ := final_move hclosed m
    obtain ⟨hrest, hdeeds, hleft'⟩ := ih hmove.closed
    refine ⟨hmove.trans hrest, ?_, fun l hfree => ?_⟩
    · rw [deedsBy, deeds_eq_nil_of_closed hclosed, hdeeds, List.nil_append]
    · obtain ⟨hfree₁, hfirst⟩ := hleft l hfree
      obtain ⟨hfree₂, hlater⟩ := hleft' l hfree₁
      refine ⟨hfree₂, ?_⟩
      rw [List.countP_cons]
      show ((r.move m).follow rest).stepsLeft l ≤ _
      omega

/-- A loop that makes two steps after the close has ended, unless it had to wait for the other
one. -/
theorem phase_eq_ended_of_countP (hclosed : r.closed = true) {l : Loop} (hfree : r.Unhindered l)
    {moves : List Move} (hsteps : 2 ≤ moves.countP (·.isStep l)) :
    (r.follow moves).phase l = .ended := by
  have hbound := ((final_follow hclosed moves).2.2 l hfree).2
  have htwo := r.stepsLeft_le l
  exact phase_eq_ended_of_stepsLeft (by omega)

/-- The consumer of a closed resolver is given the first push if the loop that applies has not
begun, and nothing else. -/
theorem Final.updates_eq (h : Final r r')
    (hphase : r'.applying = .starting → r.applying = .starting) :
    r'.updates = r.updates ∨ r.applying = .starting ∧
    r'.updates = r.roster.addresses :: r.updates := by
  have hpromised := h.promised_eq
  unfold promised at hpromised
  by_cases hbefore : r.applying = .starting
  · by_cases hafter : r'.applying = .starting
    · rw [if_pos hbefore, if_pos hafter] at hpromised
      exact .inl (List.cons.inj hpromised).2
    · rw [if_pos hbefore, if_neg hafter] at hpromised
      exact .inr ⟨hbefore, hpromised⟩
  · rw [if_neg hbefore, if_neg fun hafter => hbefore (hphase hafter)] at hpromised
    exact .inl hpromised

/-- Once nothing can go on, a closed resolver has no loop left. -/
theorem AtRest.phase_eq_ended (h : r.AtRest) (hclosed : r.closed = true) (l : Loop) :
    r.phase l = .ended :=
  ((step?_eq_none_iff_of_closed hclosed l).mp (h l)).resolve_right fun ⟨_, ⟨nodes, hphase⟩, _⟩ =>
    h.not_sending nodes hphase

/-! ## Closing -/

/-- A resolver that is closed or let go of is closed, as one that nobody holds already is. -/
theorem Faithful.closed_move (h : r.Faithful) {closing : Move}
    (hclosing : closing = .close ∨ closing = .release) : (r.move closing).closed = true := by
  rcases hclosing with rfl | rfl
  · rw [move, perform]
    split
    next => rfl
    next hheld => exact h.held (by simpa using hheld)
  · rfl

/-- To close a resolver once more changes nothing. -/
theorem move_close_of_closed (hclosed : r.closed = true) : r.move .close = r := by
  rw [move, perform]
  split
  next => rw [← hclosed]
  next => rfl

/-- To let go of a closed resolver lets go of its handle alone. -/
theorem move_release_of_closed (hclosed : r.closed = true) :
    r.move .release = { r with held := false } := by
  show { r with closed := true, held := false } = { r with held := false }
  rw [← hclosed]

/-- Once the loops of a closed resolver have taken turns, they have ended. -/
theorem phase_batch_eq_ended (hclosed : r.closed = true) (l : Loop) {commands : List Command}
    (h : commands ≠ []) : (r.batch commands).phase l = .ended := by
  have hstays : (r.batch commands).closed = true :=
    r.follow_batchMoves commands ▸ (final_follow hclosed (r.batchMoves commands)).1.closed
  exact (r.atRest_batch h).phase_eq_ended hstays l

variable {settings : Settings} {feed : Feed} {registry : Registry} {outage : Option String}

/-- When a resolver is closed or let go of, that is the end of it, whatever waits and whatever else
happens, in any order: no change is applied, no fetch begun and nothing reported any more. Its
consumer is given at most the first push, if the loop that applies had not begun. A loop can go on
until it has ended, which takes it two steps at most, unless it has a full node list to hand over
and waits for the other loop, which ends first then; and the loops taking turns both end. Closing it
again changes nothing. -/
theorem follow_close_final (hstart : ofFeed settings feed registry outage = .ok r)
    (before : List Move)
    {closing : Move} (hclosing : closing = .close ∨ closing = .release) (later : List Move) :
    let r₁ := (r.follow before).move closing
    let r₂ := r₁.follow later
    (r₂.closed = true ∧ r₁.deedsBy later = [] ∧
      r₂.roster = r₁.roster ∧ r₂.fetches = r₁.fetches ∧ r₂.errors = r₁.errors) ∧
    (r₂.updates = r₁.updates ∨
      r₁.applying = .starting ∧ r₁.updates = [] ∧ r₂.updates = [r.roster.addresses]) ∧
    (∀ l, (r₁.Unhindered l → (r₂.step? l = none ↔ r₂.phase l = .ended) ∧
        (2 ≤ later.countP (·.isStep l) → r₂.phase l = .ended)) ∧
      ∀ commands ≠ [], (r₂.batch commands).phase l = .ended) ∧
    (∀ first rest, later = first ++ rest → 2 ≤ first.countP (·.isStep .apply) →
      2 ≤ rest.countP (·.isStep .refresh) → ∀ l, r₂.phase l = .ended) ∧
    r₂.move .close = r₂ ∧ r₂.move .release = { r₂ with held := false } := by
  intro r₁ r₂
  have hfaithful : (r.follow before).Faithful := faithful_follow (faithful_ofFeed hstart) before
  have hclosed : r₁.closed = true := hfaithful.closed_move hclosing
  obtain ⟨hfinal, hdeeds, hleft⟩ := final_follow hclosed later
  have hfinished : r₂.closed = true := hfinal.closed
  refine ⟨⟨hfinished, hdeeds, hfinal.roster_eq, hfinal.fetches_eq, hfinal.errors_eq⟩, ?_, ?_, ?_,
    move_close_of_closed hfinished, move_release_of_closed hfinished⟩
  · have haccounts : Accounts r.roster (r.deedsBy (before ++ [closing])) r₁ := by
      have hfollow := accounts_follow (accounts_ofFeed hstart) (before ++ [closing])
      rwa [follow_append, List.nil_append] at hfollow
    refine (hfinal.updates_eq fun hphase => (prefix_syncs_follow later hphase).1).imp_right ?_
    -- as long as the loop that applies has not begun, what is known is what the first fetch brought
    rintro ⟨hphase, hupdates⟩
    obtain ⟨hnone, happlied⟩ := haccounts.unstarted hphase
    have hroster : r₁.roster = r.roster := by rw [haccounts.roster_eq, happlied, List.foldl_nil]
    exact ⟨hphase, hnone, by rw [hupdates, hnone, hroster]⟩
  · refine fun l => ⟨fun hfree => ⟨?_, phase_eq_ended_of_countP hclosed hfree⟩,
      fun commands hcommands => phase_batch_eq_ended hfinished l hcommands⟩
    have hfree₂ : r₂.Unhindered l := (hleft l hfree).1
    rw [step?_eq_none_iff_of_closed hfinished l, or_iff_left hfree₂.not_stuck]
  · rintro first rest rfl happly hrefresh l
    have hfirst : (r₁.follow first).closed = true := (final_follow hclosed first).1.closed
    have hgone : (r₁.follow first).applying = .ended :=
      phase_eq_ended_of_countP hclosed (l := .apply) (.inl rfl) happly
    show ((r₁.follow (first ++ rest)).phase l) = .ended
    rw [follow_append]
    cases l with
    | apply => exact applying_follow_of_ended hgone rest
    | refresh => exact phase_eq_ended_of_countP hfirst (.inr (.inr hgone)) hrefresh

/-- A resolver is closed before the loop that applies has begun, while two changes, a full node
list, a request and a deadline wait. -/
theorem follow_close_busy_final :
    let node (id : String) : Node :=
      { id, service := "s", protocol := .grpc, host := "h", port := 1 }
    let settings : Settings := ⟨⟨"s", .grpc, []⟩, 60000, by decide, fun _ _ => .accepted⟩
    let registry := ({} : Registry).register 0 (node "a")
    let before : List Move :=
      [.step .refresh, .push (.added (node "b")), .registry (.register 0 (node "c")), .resolveNow,
        .step .refresh, .push (.removed (node "a")), .resolveNow, .clock 200000]
    let later : List Move :=
      [.step .refresh, .push (.added (node "d")), .resolveNow, .step .apply,
        .registry (.deregister "a"), .step .apply, .step .refresh]
    ∃ r, ofFeed settings (.manual { capacity := 8 } false) registry none = .ok r ∧
      let r₁ := (r.follow before).move .close
      let r₂ := r₁.follow later
      r₁.syncs = [[node "a", node "c"]] ∧ r₁.pending = 2 ∧ r₁.requests = 1 ∧ r₁.deadline ≤ r₁.now ∧
      r₁.deedsBy later = [] ∧ r₂.fetches = 2 ∧ r₂.updates = [[(node "a").address]] ∧
      ∀ l, r₂.phase l = .ended := by
  intro node settings registry before later
  refine ⟨_, rfl, by decide, by decide, by decide, by decide, ?_⟩
  have hstart : ofFeed settings (.manual { capacity := 8 } false) registry none = .ok _ := rfl
  obtain ⟨⟨-, hdeeds, -, hfetches, -⟩, hupdates, hended, -⟩ :=
    follow_close_final hstart before (.inl rfl) later
  obtain ⟨-, -, hupdates⟩ := hupdates.resolve_left (by decide)
  exact ⟨hdeeds, hfetches.trans (by decide), hupdates.trans (by decide),
    fun l => ((hended l).1 (by cases l <;> decide)).2 (by cases l <;> decide)⟩

end Resolver

end RingRouting
