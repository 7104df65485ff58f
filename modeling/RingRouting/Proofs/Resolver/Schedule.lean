import RingRouting.Proofs.Registry.Announcements
import RingRouting.Resolver.Run

/-!
# Schedules of a resolver

What is known about a resolver must not depend on when its loops go on. A schedule says in which
order the single steps of the loops, what is done to the resolver, and what others do to the
registry come after one another; every order is one. What a step of a loop can do is said once, by
`Applied` and `Refreshed`. Main statements: `follow_batchMoves` and `exists_launch_of_start`, that
the loops taking turns follow a schedule.
-/

namespace RingRouting

namespace Resolver

/-- One thing that happens to a resolver or beside it. -/
inductive Move where
  /-- Someone else does something to the registry. -/
  | registry (op : Registry.Op)
  | push (c : Change)
  | endWatch
  | setOutage (reason : Option String)
  | resolveNow
  | close
  | release
  /-- The clock shows another time. -/
  | clock (now : Nat)
  /-- A loop makes a step, if it can go on. -/
  | step (l : Loop)
  /-- Other loops are queued. -/
  | queue (ready : List Loop)

/-- The resolver after a move. -/
def move (r : Resolver) : Move → Resolver
  | .registry op =>
    match r.feed with
    | .registry watch => { r with registry := r.registry.performBeside watch op }
    | .manual .. => { r with registry := r.registry.perform op }
  | .push c => r.perform (.push c)
  | .endWatch => r.perform .endWatch
  | .setOutage reason => r.perform (.setOutage reason)
  | .resolveNow => r.perform .resolveNow
  | .close => r.perform .close
  | .release => r.perform .release
  | .clock now => { r with now }
  | .step l => (r.step? l).getD r
  | .queue ready => { r with ready }

/-- The resolver after moves one after the other. -/
def follow (r : Resolver) (moves : List Move) : Resolver :=
  moves.foldl move r

/-- Moves one after the other lead on from where the first ones end. -/
theorem follow_append (r : Resolver) (moves moves' : List Move) :
    r.follow (moves ++ moves') = (r.follow moves).follow moves' :=
  List.foldl_append

/-- How a resolver over a watch on a registry comes about. -/
structure Launch where
  watchBuffer : Nat
  settings : Settings
  /-- What happened to the registry until the watch is opened. -/
  before : List Registry.Op
  /-- What others do to the registry between the opening of the watch and the first full fetch. -/
  between : List Registry.Op

namespace Launch

/-- The registry in which the watch is opened. -/
def origin (l : Launch) : Registry :=
  l.before.foldl Registry.perform (.withWatchBuffer l.watchBuffer)

/-- The number of the watch. -/
def watch (l : Launch) : Nat :=
  (l.origin.watch l.settings.selection).1

/-- The registry that the first full fetch meets. -/
def registry (l : Launch) : Registry :=
  l.between.foldl (·.performBeside l.watch ·) (l.origin.watch l.settings.selection).2

/-- The resolver after the first full fetch. Neither loop has run yet. -/
def resolver (l : Launch) : Except ResolutionError Resolver :=
  ofFeed l.settings (.registry l.watch) l.registry none

end Launch

/-! ## What the loops do -/

/-- What a step of the loop that applies does. -/
inductive Applied : Resolver → Resolver → Prop
  /-- The first push. -/
  | start {r : Resolver} (hphase : r.applying = .starting) :
      Applied r { r with applying := .running }.publish
  /-- The resolver is closed. -/
  | stop {r : Resolver} (hphase : r.applying = .running) (hclosed : r.closed = true) :
      Applied r r.stopApplying
  /-- A full node list replaces what was known. -/
  | replace {r : Resolver} {nodes : List Node} {rest : List (List Node)}
      (hphase : r.applying = .running)
      (hopen : r.closed = false) (hsyncs : r.syncs = nodes :: rest) :
      Applied r ({ r with syncs := rest }.apply ⟨.sync, nodes⟩)
  /-- A change is taken out of the feed, as no full node list is there. -/
  | change {r r' : Resolver} {c : Change} (hphase : r.applying = .running)
      (hopen : r.closed = false)
      (hsyncs : r.syncs = []) (hreceive : r.receive? = some (c, r')) : Applied r (r'.apply c)
  /-- The feed has ended. -/
  | exhaust {r : Resolver} (hphase : r.applying = .running) (hopen : r.closed = false)
      (hsyncs : r.syncs = []) (hreceive : r.receive? = none) (hended : r.feedEnded = true) :
      Applied r { r with watchOpen := false }

/-- What a step of the loop that applies can be. -/
theorem applied_of_applyStep? {r r' : Resolver} (h : r.applyStep? = some r') : Applied r r' := by
  unfold applyStep? at h
  split at h
  next hphase => exact Option.some.inj h ▸ .start hphase
  next hphase =>
    split at h
    next hclosed => exact Option.some.inj h ▸ .stop hphase hclosed
    next hopen =>
      rw [Bool.not_eq_true] at hopen
      split at h
      next hsyncs => exact Option.some.inj h ▸ .replace hphase hopen hsyncs
      next hsyncs =>
        split at h
        next =>
          split at h
          next hreceive => exact Option.some.inj h ▸ .change hphase hopen hsyncs hreceive
          next hreceive =>
            split at h
            next hended => exact Option.some.inj h ▸ .exhaust hphase hopen hsyncs hreceive hended
            next => cases h
        next => cases h
  next => cases h

/-- A full fetch is due or asked for. -/
def Due (r : Resolver) : Prop :=
  r.deadline ≤ r.now ∨ 0 < r.requests

/-- The loop that refreshes has begun a full fetch. -/
def begun (r : Resolver) : Resolver :=
  { r with
    deadline := r.now + r.settings.interval
    requests := if r.deadline ≤ r.now then min r.requests 1 else r.requests - 1 }

/-- What a step of the loop that refreshes does. -/
inductive Refreshed : Resolver → Resolver → Prop
  /-- The loop begins to wait. -/
  | start {r : Resolver} (hphase : r.refreshing = .starting) :
      Refreshed r { r with refreshing := .running, deadline := r.now + r.settings.interval }
  /-- The resolver is closed. -/
  | stop {r : Resolver} (hphase : r.refreshing = .running) (hclosed : r.closed = true) :
      Refreshed r { r with refreshing := .ended }
  /-- A full node list is fetched, and the other loop is there to apply it. -/
  | fetch {r : Resolver} {nodes : List Node} (hphase : r.refreshing = .running)
      (hopen : r.closed = false) (hdue : r.Due)
      (hquery : query r.registry r.outage r.settings.selection = .ok nodes)
      (halive : r.applying ≠ .ended) (hroom : r.syncs.length < syncCapacity) :
      Refreshed r { r.begun with
        fetches := r.fetches + 1, refreshing := .running, syncs := r.syncs ++ [nodes] }
  /-- A full node list is fetched, and has to wait. -/
  | wait {r : Resolver} {nodes : List Node} (hphase : r.refreshing = .running)
      (hopen : r.closed = false) (hdue : r.Due)
      (hquery : query r.registry r.outage r.settings.selection = .ok nodes)
      (halive : r.applying ≠ .ended) (hfull : ¬ r.syncs.length < syncCapacity) :
      Refreshed r { r.begun with fetches := r.fetches + 1, refreshing := .sending nodes }
  /-- A full node list is fetched in vain. -/
  | orphan {r : Resolver} {nodes : List Node} (hphase : r.refreshing = .running)
      (hopen : r.closed = false) (hdue : r.Due)
      (hquery : query r.registry r.outage r.settings.selection = .ok nodes)
      (hgone : r.applying = .ended) :
      Refreshed r { r.begun with fetches := r.fetches + 1, refreshing := .ended }
  /-- The fetch fails. -/
  | fail {r : Resolver} {e : ResolutionError} (hphase : r.refreshing = .running)
      (hopen : r.closed = false) (hdue : r.Due)
      (hquery : query r.registry r.outage r.settings.selection = .error e) :
      Refreshed r { r.begun with fetches := r.fetches + 1, errors := e :: r.errors }
  /-- The full node list that waited fits now. -/
  | deliver {r : Resolver} {nodes : List Node} (hphase : r.refreshing = .sending nodes)
      (halive : r.applying ≠ .ended) (hroom : r.syncs.length < syncCapacity) :
      Refreshed r { r with refreshing := .running, syncs := r.syncs ++ [nodes] }
  /-- The full node list waited in vain. -/
  | abandon {r : Resolver} {nodes : List Node} (hphase : r.refreshing = .sending nodes)
      (hgone : r.applying = .ended) : Refreshed r { r with refreshing := .ended }

/-- A fetch that is due is a step of the loop that refreshes. -/
theorem refreshed_refetch_begun {r : Resolver} (hphase : r.refreshing = .running)
    (hopen : r.closed = false) (hdue : r.Due) : Refreshed r r.begun.refetch := by
  unfold refetch handOver
  split
  next nodes hquery =>
    split
    next hgone => exact .orphan hphase hopen hdue hquery hgone
    next halive =>
      split
      next hroom => exact .fetch hphase hopen hdue hquery halive hroom
      next hfull => exact .wait hphase hopen hdue hquery halive hfull
  next e hquery => exact .fail hphase hopen hdue hquery

/-- So is the handing over of a list once there is room, or nobody left to wait for. -/
theorem refreshed_handOver {r : Resolver} {nodes : List Node}
    (hphase : r.refreshing = .sending nodes)
    (hgo : r.applying = .ended ∨ r.syncs.length < syncCapacity) :
    Refreshed r (r.handOver nodes) := by
  unfold handOver
  split
  next hgone => exact .abandon hphase hgone
  next halive =>
    have hroom := hgo.resolve_left halive
    rw [if_pos hroom]
    exact .deliver hphase halive hroom

/-- What a step of the loop that refreshes can be. -/
theorem refreshed_of_refreshStep? {r r' : Resolver} (h : r.refreshStep? = some r') :
    Refreshed r r' := by
  unfold refreshStep? at h
  split at h
  next hphase => exact Option.some.inj h ▸ .start hphase
  next hphase =>
    split at h
    next hclosed => exact Option.some.inj h ▸ .stop hphase hclosed
    next hopen =>
      rw [Bool.not_eq_true] at hopen
      split at h
      next hdue =>
        have hbegun := refreshed_refetch_begun hphase hopen (.inl hdue)
        rw [begun, if_pos hdue] at hbegun
        exact Option.some.inj h ▸ hbegun
      next hdue =>
        split at h
        next hrequest =>
          have hbegun := refreshed_refetch_begun hphase hopen (.inr hrequest)
          rw [begun, if_neg hdue] at hbegun
          exact Option.some.inj h ▸ hbegun
        next => cases h
  next nodes hphase =>
    split at h
    next hgo => exact Option.some.inj h ▸ refreshed_handOver hphase hgo
    next => cases h
  next => cases h

/-- What a move does. -/
inductive Moved : Resolver → Resolver → Prop
  | apply {r r' : Resolver} (h : Applied r r') : Moved r r'
  | refresh {r r' : Resolver} (h : Refreshed r r') : Moved r r'
  /-- Something is done from outside. What was applied, pushed and fetched stays. -/
  | outside {r : Resolver} {registry : Registry} {feed : Feed} {outage : Option String}
      {now requests : Nat} {closed held : Bool} {ready : List Loop}
      (hclosed : r.closed = true → closed = true)
      (hheld : r.held = true → held = false → closed = true) :
      Moved r { r with registry, feed, outage, now, requests, closed, held, ready }

/-- What is done from outside leaves alone what was applied, pushed and fetched. -/
theorem exists_move_eq (r : Resolver) {m : Move} (hm : ∀ l, m ≠ .step l) :
    ∃ registry feed outage now requests closed held ready,
      r.move m = { r with registry, feed, outage, now, requests, closed, held, ready } ∧
        (r.closed = true → closed = true) ∧ (r.held = true → held = false → closed = true) := by
  have hopen : (r.closed = true → r.closed = true) ∧
      (r.held = true → r.held = false → r.closed = true) :=
    ⟨id, fun hheld hfree => absurd hheld (hfree ▸ Bool.false_ne_true)⟩
  cases m with
  | step l => exact absurd rfl (hm l)
  | registry op =>
    simp only [move]
    split <;> exact ⟨_, _, _, _, _, _, _, _, rfl, hopen⟩
  | push | endWatch =>
    simp only [move, perform]
    split <;> exact ⟨_, _, _, _, _, _, _, _, rfl, hopen⟩
  | resolveNow =>
    simp only [move, perform]
    split <;> exact ⟨_, _, _, _, _, _, _, _, rfl, hopen⟩
  | close =>
    simp only [move, perform]
    split
    next => exact ⟨_, _, _, _, _, _, _, _, rfl, fun _ => rfl, fun _ _ => rfl⟩
    next => exact ⟨_, _, _, _, _, _, _, _, rfl, hopen⟩
  | release => exact ⟨_, _, _, _, _, _, _, _, rfl, fun _ => rfl, fun _ _ => rfl⟩
  | setOutage | clock | queue => exact ⟨_, _, _, _, _, _, _, _, rfl, hopen⟩

/-- What a move can be. -/
theorem moved_move (r : Resolver) (m : Move) : Moved r (r.move m) := by
  by_cases hm : ∃ l, m = .step l
  · obtain ⟨l, rfl⟩ := hm
    cases hstep : r.step? l with
    | none =>
      have hstay : Moved r r :=
        .outside id fun hheld hfree => absurd hheld (hfree ▸ Bool.false_ne_true)
      simpa only [move, hstep, Option.getD_none] using hstay
    | some next =>
      simp only [move, hstep, Option.getD_some]
      cases l with
      | apply => exact .apply (applied_of_applyStep? hstep)
      | refresh => exact .refresh (refreshed_of_refreshStep? hstep)
  · obtain ⟨registry, feed, outage, now, requests, closed, held, ready, heq, hclosed, hheld⟩ :=
      r.exists_move_eq (not_exists.mp hm)
    exact heq ▸ .outside hclosed hheld

/-! ## Turns -/

/-- The steps of a loop in a turn. -/
def turnMoves (l : Loop) : Nat → Resolver → List Move
  | 0, _ => []
  | n + 1, r =>
    match r.step? l with
    | some next => .step l :: next.turnMoves l n
    | none => []

/-- The moves that the loops make until both are at rest. -/
def settleMoves (r : Resolver) : List Move :=
  match _ : r.ready with
  | [] => []
  | l :: rest =>
    match _ : r.step? l with
    | some next =>
      let turned := { next.turn l (turnLimit - 1) with ready := rest }
      .step l :: (next.turnMoves l (turnLimit - 1) ++
        .queue rest :: .queue turned.wake.ready :: turned.wake.settleMoves)
    | none => .queue rest :: { r with ready := rest }.settleMoves
termination_by (r.work, r.ready.length)
decreasing_by
  · refine Prod.Lex.left _ _ (Nat.lt_of_le_of_lt ?_ (work_lt_of_step? ‹_›))
    exact work_turn_le l (turnLimit - 1) next
  · refine Prod.Lex.right _ ?_
    simp [*]

/-- The moves by which time passes until `target`, with at most `n` stops. -/
def advanceToMoves (target : Nat) : Nat → Resolver → List Move
  | 0, r => [.clock target, .queue { r with now := target }.wake.ready]
  | n + 1, r =>
    if r.refreshing = .running ∧ r.deadline < target then
      let due := { r with now := r.deadline }.wake
      .clock r.deadline :: .queue due.ready ::
      (due.settleMoves ++ due.settle.advanceToMoves target n)
    else [.clock target, .queue { r with now := target }.wake.ready]

/-- The moves that a command makes at once. -/
def performMoves (r : Resolver) : Command → List Move
  | .register n => [.registry (.register r.now n)]
  | .deregister id => [.registry (.deregister id)]
  | .expire ttl => [.registry (.expire r.now ttl)]
  | .push c => [.push c]
  | .endWatch => [.endWatch]
  | .setOutage reason => [.setOutage reason]
  | .resolveNow => [.resolveNow]
  | .advance time =>
    if time = 0 then []
    else r.settleMoves ++ r.settle.advanceToMoves (r.now + time) (time / r.settings.interval + 1)
  | .close => [.close]
  | .release => [.release]

/-- The moves that commands make one after the other. -/
def commandMoves : List Command → Resolver → List Move
  | [], _ => []
  | c :: rest, r =>
    r.performMoves c ++ .queue (r.perform c).wake.ready :: (r.perform c).wake.commandMoves rest

/-- The moves of a batch of commands, until the loops are at rest. -/
def batchMoves (r : Resolver) (commands : List Command) : List Move :=
  r.commandMoves commands ++ (commands.foldl (fun r c => (r.perform c).wake) r).settleMoves

/-- A turn of a loop, as moves. -/
theorem follow_turnMoves (l : Loop) (n : Nat) (r : Resolver) :
    r.follow (r.turnMoves l n) = r.turn l n := by
  induction n generalizing r with
  | zero => rfl
  | succ n ih =>
    unfold turnMoves turn
    cases hstep : r.step? l with
    | none => rfl
    | some next =>
      have hmove : r.move (.step l) = next := by rw [move, hstep, Option.getD_some]
      show (r.move (.step l)).follow (next.turnMoves l n) = next.turn l n
      rw [hmove, ih]

/-- With no loop queued there is nothing to settle. -/
theorem settle_of_ready_eq_nil {r : Resolver} (h : r.ready = []) : r.settle = r := by
  rw [settle]
  split
  next => rfl
  next hready => rw [h] at hready; cases hready

/-- The way to rest, as moves. -/
theorem follow_settleMoves (r : Resolver) : r.follow r.settleMoves = r.settle := by
  fun_induction settle r with
  | case1 r hready =>
    rw [settleMoves]
    split
    next => rfl
    next hcons => rw [hready] at hcons; cases hcons
  | case2 r l rest hready next hstep ih =>
    have hmove : r.move (.step l) = next := by rw [move, hstep, Option.getD_some]
    rw [settleMoves]
    split
    next hnil => rw [hready] at hnil; cases hnil
    next l' rest' hcons =>
      obtain ⟨rfl, rfl⟩ := List.cons.inj (hready.symm.trans hcons)
      split
      next next' hnext =>
        obtain rfl := Option.some.inj (hstep.symm.trans hnext)
        show (r.move (.step l)).follow _ = _
        rw [hmove, follow_append, follow_turnMoves]
        exact ih
      next hnone => rw [hstep] at hnone; cases hnone
  | case3 r l rest hready hstep ih =>
    rw [settleMoves]
    split
    next hnil => rw [hready] at hnil; cases hnil
    next l' rest' hcons =>
      obtain ⟨rfl, rfl⟩ := List.cons.inj (hready.symm.trans hcons)
      split
      next next' hnext => rw [hstep] at hnext; cases hnext
      next => exact ih

/-- An advance of the clock, as moves. -/
theorem follow_advanceToMoves (target n : Nat) (r : Resolver) :
    r.follow (r.advanceToMoves target n) = r.advanceTo target n := by
  induction n generalizing r with
  | zero => rfl
  | succ n ih =>
    unfold advanceToMoves advanceTo
    split
    next =>
      show ({ r with now := r.deadline } : Resolver).wake.follow _ = _
      rw [follow_append, follow_settleMoves, ih]
    next => rfl

/-- Whatever is done to a resolver and its registry from outside is done by moves. -/
theorem follow_performMoves (r : Resolver) (c : Command) :
    r.follow (r.performMoves c) = r.perform c := by
  have hregistry (op : Registry.Op) (hop : op.reader? = none) :
      r.move (.registry op) = { r with registry := r.registry.perform op } := by
    simp only [move, Registry.performBeside, hop]
    cases hfeed : r.feed <;> simp
  cases c with
  | register n => exact hregistry (.register r.now n) rfl
  | deregister id => exact hregistry (.deregister id) rfl
  | expire ttl => exact hregistry (.expire r.now ttl) rfl
  | push | endWatch | setOutage | resolveNow | close | release => rfl
  | advance time =>
    simp only [performMoves, perform, advance]
    split
    next => rfl
    next => rw [follow_append, follow_settleMoves, follow_advanceToMoves]

/-- Commands one after the other, as moves. -/
theorem follow_commandMoves (commands : List Command) (r : Resolver) :
    r.follow (r.commandMoves commands) = commands.foldl (fun r c => (r.perform c).wake) r := by
  induction commands generalizing r with
  | nil => rfl
  | cons c rest ih =>
    rw [commandMoves, follow_append, follow_performMoves]
    exact ih _

/-- A batch of commands, with the loops taking turns until both are at rest, follows a schedule. -/
theorem follow_batchMoves (r : Resolver) (commands : List Command) :
    r.follow (r.batchMoves commands) = r.batch commands := by
  rw [batchMoves, follow_append, follow_commandMoves, follow_settleMoves]
  rfl

/-- Some moves lead from one state to the other. -/
def Reaches (r r' : Resolver) : Prop :=
  ∃ moves, r.follow moves = r'

/-- A resolver that is started has opened its feed and made its first full fetch, and its loops have
taken turns. -/
theorem exists_ofFeed_of_start {target : Target} {protocol : Protocol} {tags : List String}
    {interval : Nat}
    {answer : Consumer} {source : WatchSource} {registry : Registry} {outage : Option String}
    {r : Resolver} (h : start target protocol tags interval answer source registry outage = .ok r) :
    ∃ (settings : Settings) (feed : Feed) (registry' : Registry) (r₀ : Resolver),
      settings.selection = ⟨target.endpoint, protocol, tags⟩ ∧ settings.interval = interval ∧
      settings.answer = answer ∧ openFeed source registry settings.selection =
        .ok (feed, registry') ∧
      ofFeed settings feed registry' outage = .ok r₀ ∧ r = r₀.wake.settle := by
  unfold start at h
  split at h
  next => cases h
  next =>
    split at h
    next => cases h
    next hinterval =>
      dsimp only at h
      split at h
      next => cases h
      next feed registry' hopen =>
        split at h
        next => cases h
        next r₀ hr₀ =>
          exact ⟨_, feed, registry', r₀, rfl, rfl, rfl, hopen, hr₀, (Except.ok.inj h).symm⟩

/-- A resolver that is started over a registry comes about by a launch, after which its loops follow
a schedule. -/
theorem exists_launch_of_start {target : Target} {protocol : Protocol} {tags : List String}
    {interval watchBuffer : Nat} {answer : Consumer} {before : List Registry.Op}
    {outage : Option String} {r : Resolver}
    (h : start target protocol tags interval answer .registry
      (before.foldl Registry.perform (.withWatchBuffer watchBuffer)) outage = .ok r) :
    ∃ (settings : Settings) (r₀ : Resolver),
      settings.selection = ⟨target.endpoint, protocol, tags⟩ ∧
      settings.answer = answer ∧ (Launch.mk watchBuffer settings before []).resolver = .ok r₀ ∧
      Reaches r₀ r := by
  obtain ⟨settings, feed, registry', r₀, hselection, -, hanswer, hopen, hr₀, rfl⟩ :=
    exists_ofFeed_of_start h
  obtain ⟨rfl, rfl⟩ := Prod.mk.inj (Except.ok.inj hopen)
  have houtage : outage = none := by
    cases outage with
    | none => rfl
    | some reason => cases hr₀
  subst houtage
  exact ⟨settings, r₀, hselection, hanswer, hr₀,
    .queue r₀.wake.ready :: r₀.wake.settleMoves, follow_settleMoves _⟩

end Resolver

end RingRouting
