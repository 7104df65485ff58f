import RingRouting.Proofs.Resolver.Schedule

/-!
# What the consumer of a resolver knows

Whatever a resolver applies it pushes at once, so its consumer knows what was applied last from the
first push on, and until the loop that applies ends. That loop begins with a push, takes nothing
before it, ends only when the resolver is closed or the consumer crashes, and does not come back.
Main statement: `faithful_follow`, that this holds along every schedule.
-/

namespace RingRouting

/-- The consumer crashed on none of the lists that it was given, the newest first. -/
def Consumer.Survives (answer : Consumer) : List (List Address) → Prop
  | [] => True
  | update :: earlier => answer earlier update ≠ .crashed ∧ answer.Survives earlier

instance Consumer.decidableSurvives (answer : Consumer) :
    (updates : List (List Address)) → Decidable (answer.Survives updates)
  | [] => isTrue trivial
  | _ :: earlier =>
    have := decidableSurvives answer earlier
    inferInstanceAs (Decidable (_ ∧ _))

/-- What a consumer survived it survived up to any point. -/
theorem Consumer.Survives.of_suffix {answer : Consumer} {earlier updates : List (List Address)}
    (h : answer.Survives updates) (hsuffix : earlier <:+ updates) : answer.Survives earlier := by
  induction updates with
  | nil => exact List.suffix_nil.mp hsuffix ▸ h
  | cons update rest ih =>
    rcases List.suffix_cons_iff.mp hsuffix with rfl | hrest
    · exact h
    · exact ih h.2 hrest

namespace Resolver

variable {r r' : Resolver}

/-- The loop that applies ends. Besides, only what it had not taken yet is lost. -/
theorem exists_stopApplying (r : Resolver) : ∃ registry feed,
    r.stopApplying = { r with applying := .ended, syncs := [], registry, feed } := by
  unfold stopApplying
  split
  next => exact ⟨_, _, rfl⟩
  next => exact ⟨_, _, rfl⟩

/-- Taking a change out of the feed changes nothing else. -/
theorem exists_receive? {c : Change} (h : r.receive? = some (c, r')) :
    ∃ registry feed, r' = { r with registry, feed } := by
  unfold receive? at h
  split at h
  next =>
    obtain ⟨taken, -, heq⟩ := Option.map_eq_some_iff.mp h
    cases heq
    exact ⟨_, _, rfl⟩
  next =>
    obtain ⟨taken, -, heq⟩ := Option.map_eq_some_iff.mp h
    cases heq
    exact ⟨_, _, rfl⟩

/-! ## Pushes -/

/-- The consumer was given what was applied last, and the loop that applies ends only for a
reason. -/
structure Faithful (r : Resolver) : Prop where
  snapshot_eq : r.snapshot = r.roster.toList
  head?_updates : r.applying ≠ .starting → r.updates.head? = some r.roster.addresses
  ended : r.applying = .ended →
    r.closed = true ∨ ¬ r.settings.answer.Survives r.updates
  held : r.held = false → r.closed = true

/-- A resolver begins with what the first full fetch brought. -/
theorem exists_of_ofFeed {settings : Settings} {feed : Feed} {registry : Registry}
    {outage : Option String} (hstart : ofFeed settings feed registry outage = .ok r) : ∃ nodes,
      r = { settings, registry, feed, outage, roster := .ofList nodes,
            snapshot := (Roster.ofList nodes).toList, fetches := 1 } := by
  unfold ofFeed at hstart
  cases hquery : query registry outage settings.selection with
  | error e => rw [hquery] at hstart; cases hstart
  | ok nodes =>
    rw [hquery] at hstart
    exact ⟨nodes, (Except.ok.inj hstart).symm⟩

/-- A resolver that starts has given its consumer nothing yet, and its loops go on. -/
theorem faithful_ofFeed {settings : Settings} {feed : Feed} {registry : Registry}
    {outage : Option String}
    (hstart : ofFeed settings feed registry outage = .ok r) : r.Faithful := by
  obtain ⟨nodes, rfl⟩ := exists_of_ofFeed hstart
  exact ⟨rfl, fun h => absurd rfl h, nofun, nofun⟩

theorem Launch.faithful {l : Launch} (hlaunch : l.resolver = .ok r) : r.Faithful :=
  faithful_ofFeed hlaunch

/-- What is known is published to the consumer, who may crash on it. -/
theorem faithful_publish (hphase : r.applying = .running)
    (hheld : r.held = false → r.closed = true) :
    r.publish.Faithful := by
  unfold publish
  split
  next hcrash =>
    obtain ⟨registry, feed, hstop⟩ := exists_stopApplying r.noteUpdate
    rw [hstop]
    exact ⟨rfl, fun _ => rfl, fun _ => .inr fun hsurvives => hsurvives.1 hcrash, hheld⟩
  next =>
    refine ⟨rfl, fun _ => rfl, fun h => ?_, hheld⟩
    rw [noteUpdate, hphase] at h
    cases h

/-- A step of the loop that applies keeps the consumer up to date. -/
theorem Faithful.applied (h : r.Faithful) (hstep : Applied r r') : r'.Faithful := by
  cases hstep with
  | start hphase => exact faithful_publish rfl h.held
  | stop hphase hclosed =>
    obtain ⟨registry, feed, hstop⟩ := exists_stopApplying r
    rw [hstop]
    refine ⟨h.snapshot_eq, fun _ => h.head?_updates ?_, fun _ => .inl hclosed, h.held⟩
    rw [hphase]
    exact Phase.noConfusion
  | replace hphase hopen hsyncs => exact faithful_publish hphase h.held
  | change hphase hopen hsyncs hreceive =>
    obtain ⟨registry, feed, rfl⟩ := exists_receive? hreceive
    exact faithful_publish hphase h.held
  | exhaust => exact ⟨h.snapshot_eq, h.head?_updates, h.ended, h.held⟩

/-- A step of the loop that refreshes does not concern it. -/
theorem Faithful.refreshed (h : r.Faithful) (hstep : Refreshed r r') : r'.Faithful := by
  cases hstep with
  | start | stop | fetch | wait | orphan | fail | deliver | abandon =>
    exact ⟨h.snapshot_eq, h.head?_updates, h.ended, h.held⟩

theorem Faithful.moved (h : r.Faithful) (hmoved : Moved r r') : r'.Faithful := by
  cases hmoved with
  | apply hstep => exact h.applied hstep
  | refresh hstep => exact h.refreshed hstep
  | outside hclosed hheld =>
    refine ⟨h.snapshot_eq, h.head?_updates, fun hend => (h.ended hend).imp_left hclosed,
      fun hfree => ?_⟩
    cases hr : r.held with
    | true => exact hheld hr hfree
    | false => exact hclosed (h.held hr)

/-- The consumer is up to date after any moves, by induction over them. -/
theorem faithful_follow (h : r.Faithful) (moves : List Move) : (r.follow moves).Faithful := by
  induction moves generalizing r with
  | nil => exact h
  | cons m rest ih => exact ih (h.moved (r.moved_move m))

/-- An open resolver tells what it knows. -/
theorem Faithful.nodes?_eq (h : r.Faithful) (hopen : r.closed = false) :
    r.nodes? = some r.roster.toList := by
  have hheld : r.held = true := by
    cases hheld : r.held with
    | true => rfl
    | false => exact absurd (h.held hheld) (hopen ▸ Bool.false_ne_true)
  rw [nodes?, if_pos hheld, h.snapshot_eq]

/-- The loop that applies goes on while the resolver is open and the consumer survives. -/
theorem Faithful.applying_ne_ended (h : r.Faithful) (hopen : r.closed = false)
    (hanswer : r.settings.answer.Survives r.updates) : r.applying ≠ .ended := by
  intro hend
  rcases h.ended hend with hclosed | hcrashed
  · exact absurd hclosed (hopen ▸ Bool.false_ne_true)
  · exact hcrashed hanswer

/-! ## Phases -/

/-- A publication ends the loop that applies, or leaves it where it was. -/
theorem applying_publish (r : Resolver) : r.publish.applying = .ended ∨
    r.publish.applying = r.applying := by
  unfold publish
  split
  next =>
    obtain ⟨registry, feed, hstop⟩ := exists_stopApplying r.noteUpdate
    exact .inl (hstop ▸ rfl)
  next => exact .inr rfl

/-- A step of the loop that applies begins it. -/
theorem Applied.applying_ne_starting (h : Applied r r') : r'.applying ≠ .starting := by
  have hpublish (r : Resolver) (hphase : r.applying = .running) :
      r.publish.applying ≠ .starting := by
    rcases r.applying_publish with heq | heq
    · exact heq ▸ Phase.noConfusion
    · exact heq ▸ hphase ▸ Phase.noConfusion
  cases h with
  | start => exact hpublish _ rfl
  | stop =>
    obtain ⟨registry, feed, hstop⟩ := exists_stopApplying r
    exact hstop ▸ Phase.noConfusion
  | replace hphase => exact hpublish _ hphase
  | change hphase hopen hsyncs hreceive =>
    obtain ⟨registry, feed, rfl⟩ := exists_receive? hreceive
    exact hpublish _ hphase
  | exhaust hphase => exact hphase ▸ Phase.noConfusion

/-- A loop that has ended does not come back. -/
theorem Moved.applying_eq_ended (hmoved : Moved r r') (h : r.applying = .ended) :
    r'.applying = .ended := by
  cases hmoved with
  | apply hstep =>
    cases hstep with
    | start hphase | stop hphase | replace hphase | change hphase | exhaust hphase =>
      rw [h] at hphase
      cases hphase
  | refresh hstep => cases hstep <;> exact h
  | outside => exact h

/-- The loop that applies never begins again. -/
theorem applying_follow_of_ended (h : r.applying = .ended) (moves : List Move) :
    (r.follow moves).applying = .ended := by
  induction moves generalizing r with
  | nil => exact h
  | cons m rest ih => exact ih ((r.moved_move m).applying_eq_ended h)

/-- As long as the loop that applies has not begun, it has taken nothing. -/
theorem Moved.prefix_syncs (hmoved : Moved r r') (h : r'.applying = .starting) :
    r.applying = .starting ∧ r.syncs <+: r'.syncs := by
  cases hmoved with
  | apply hstep => exact absurd h hstep.applying_ne_starting
  | refresh hstep =>
    cases hstep with
    | fetch | deliver => exact ⟨h, List.prefix_append ..⟩
    | start | stop | wait | orphan | fail | abandon => exact ⟨h, List.prefix_rfl⟩
  | outside => exact ⟨h, List.prefix_rfl⟩

/-- Until the loop that applies begins, full node lists are only added. -/
theorem prefix_syncs_follow (moves : List Move) (h : (r.follow moves).applying = .starting) :
    r.applying = .starting ∧ r.syncs <+: (r.follow moves).syncs := by
  induction moves generalizing r with
  | nil => exact ⟨h, List.prefix_rfl⟩
  | cons m rest ih =>
    obtain ⟨hphase, hrest⟩ := ih h
    obtain ⟨hphase, hmove⟩ := (r.moved_move m).prefix_syncs hphase
    exact ⟨hphase, hmove.trans hrest⟩

end Resolver

end RingRouting
