import Mathlib.Data.List.Induction
import RingRouting.Proofs.Balancer.Steps
import RingRouting.Proofs.Ring.History

/-!
# Histories of a balancer

A history is any sequence of callbacks, among them such that end with an error and reports of
handles that are torn down or never were made. The transport may refuse to make any handle. All that
is asked of it is that it gives each handle a number of its own and binds it to the address that was
asked for. Then the balancer is sound after every history. Main statement: `run_holdings_agree`.
-/

namespace RingRouting

/-- The handles that were made, and for which addresses. -/
def dialed (actions : List Action) : List (Connection × Address) :=
  actions.filterMap fun
    | .dialed c a => some (c, a)
    | _ => none

/-- The transport bound each handle to the address that was asked for, and no two handles have the
same number. -/
structure Honest (actions : List Action) : Prop where
  address_eq : ∀ made ∈ dialed actions, made.1.address = made.2
  nodup : ((dialed actions).map (·.1.id)).Nodup

theorem dialed_append (actions actions' : List Action) :
    dialed (actions ++ actions') = dialed actions ++ dialed actions' :=
  List.filterMap_append ..

/-- What is honest was honest all along. -/
theorem Honest.of_prefix {actions actions' : List Action} (h : Honest actions')
    (hle : actions <+: actions') : Honest actions := by
  obtain ⟨later, rfl⟩ := hle
  obtain ⟨haddress, hnodup⟩ := h
  rw [dialed_append] at haddress hnodup
  rw [List.map_append] at hnodup
  exact ⟨fun made hmade => haddress made (List.mem_append_left _ hmade),
    (List.nodup_append.mp hnodup).1⟩

namespace Balancer

/-- The balancer is sound, and the handles that it holds are among those that were made. -/
structure SoundAfter (log : List Action) (b : Balancer) : Prop where
  sound : b.Sound
  made : ∀ (a : Address) c, b.connections[a]? = some c → (c, a) ∈ dialed log

/-- What was made stays made as the log grows. -/
theorem SoundAfter.mono {log : List Action} {b : Balancer} (hb : b.SoundAfter log)
    (actions : List Action) : b.SoundAfter (log ++ actions) where
  sound := hb.sound
  made a c hc := dialed_append log actions ▸ List.mem_append_left _ (hb.made a c hc)

/-- It stays so if no connection is made. -/
theorem SoundAfter.of_sound {log : List Action} {b b' : Balancer} (hb : b.SoundAfter log)
    (hsound : b'.Sound) (hheld : ∀ (a : Address) c, b'.connections[a]? = some c →
      b.connections[a]? = some c) : b'.SoundAfter log where
  sound := hsound
  made a c hc := hb.made a c (hheld a c hc)

theorem SoundAfter.congr {log : List Action} {b b' : Balancer} (hb : b.SoundAfter log)
    (h : b'.holdings = b.holdings) : b'.SoundAfter log := by
  have hconnections : b'.connections = b.connections := connections_eq_of_holdings h
  exact hb.of_sound (hb.sound.congr h) fun a c hc => hconnections ▸ hc

/-! ## New connections -/

/-- A handle that was just made is held by nothing yet. -/
theorem SoundAfter.hold {log : List Action} {b : Balancer} (hb : b.SoundAfter log)
    {members members' : Ring Connection} (hring : b.ring = some members) {a : Address}
    {c : Connection}
    (hadd : members.add c = .ok members') (hhonest : Honest (log ++ [.dialed c a, .connect c.id])) :
    (b.hold a c members').SoundAfter (log ++ [.dialed c a, .connect c.id]) := by
  obtain ⟨haddress, hnodup⟩ := hhonest
  rw [dialed_append] at haddress hnodup
  rw [List.map_append, List.nodup_append] at hnodup
  have ha : c.address = a := haddress (c, a) (List.mem_append_right _ (List.mem_cons_self ..))
  -- what is held was made before, and no number is given twice
  have hfresh : ∀ (a' : Address) c', b.connections[a']? = some c' → c'.id ≠ c.id := by
    intro a' c' hc'
    exact hnodup.2.2 _ (List.mem_map_of_mem (hb.made a' c' hc')) _ (List.mem_cons_self ..)
  refine ⟨hb.sound.hold hring (Ring.added_of_add hadd) ha hfresh, fun a' c' hc' => ?_⟩
  rw [dialed_append, List.mem_append]
  simp only [Balancer.hold, Std.ExtTreeMap.getElem?_insert, Std.LawfulEqOrd.compare_eq_iff_eq]
    at hc'
  split at hc'
  next heq =>
    obtain rfl := Option.some.inj hc'
    exact .inr (heq ▸ List.mem_cons_self ..)
  next => exact .inl (hb.made a' c' hc')

/-! ## One step -/

/-- Every step keeps a balancer sound. -/
theorem SoundAfter.step {log actions : List Action} {b b' : Balancer} (hb : b.SoundAfter log)
    (h : Step b actions b') (hhonest : Honest (log ++ actions)) :
    b'.SoundAfter (log ++ actions) := by
  cases h with
  | adopt hadopt =>
    obtain ⟨hsound, hconnections⟩ := hb.sound.adopt hadopt
    exact (hb.of_sound hsound fun a c hc => hconnections ▸ hc).mono _
  | @release a _ _ =>
    have hheld (a' : Address) (c : Connection)
        (hc : (b.release a).balancer.connections[a']? = some c) :
        b.connections[a']? = some c := by
      rw [getElem?_release] at hc
      split at hc
      next => cases hc
      next => exact hc
    exact (hb.of_sound (hb.sound.release a) hheld).mono _
  | refuse => exact hb.mono _
  | hold hring hadd => exact hb.hold hring hadd hhonest
  | reject => exact hb.mono _
  | track hold new cause =>
    exact (hb.of_sound (hb.sound.track hold new cause) fun a c hc => hc).mono _
  | reconnect => exact hb.mono _
  | settle h => exact (hb.congr h).mono _
  | publish => exact hb.mono _
  | count => exact hb.mono _

/-- Steps keep the balancer sound if the transport is honest, by induction over them. -/
theorem SoundAfter.steps {log actions : List Action} {b b' : Balancer} (hb : b.SoundAfter log)
    (h : Steps b actions b') (hhonest : Honest (log ++ actions)) :
    b'.SoundAfter (log ++ actions) := by
  induction h generalizing log with
  | refl => rwa [List.append_nil]
  | cons h _ ih =>
    rw [← List.append_assoc] at hhonest ⊢
    exact ih (hb.step h (hhonest.of_prefix (List.prefix_append ..))) hhonest

/-- On the way of a callback, at a balancer that stands for as much of it as is done, it is taken
down that a handle leaves a state. A new handle leaves none. -/
inductive CountsOut (b : Balancer) : Callback → Balancer → Connectivity → Prop
  /-- A tracked handle reports another state. -/
  | report {id : Nat} {new old : Connectivity} {cause : Option BalancerError}
      (hold : b.states[id]? = some old) : CountsOut b (.report id new cause) b old
  /-- A connection is let go of, after others were. -/
  | release {dial : Nat → Address → Option Connection} {addresses : List Address}
      {policy : Option Policy} {b' : Balancer} {front back : List Address} {a : Address}
      {c : Connection} {old : Connectivity}
      (hadopt : ({ b with resolverError := none } : Balancer).adopt policy = .ok b')
      (hstale : b'.stale (.ofList addresses) = front ++ a :: back)
      (hheld : (b'.releaseAll front).balancer.connections[a]? = some c)
      (hold : (b'.releaseAll front).balancer.states[c.id]? = some old) :
      CountsOut b (.update dial addresses policy) (b'.releaseAll front).balancer old

/-- No count that is to go down is zero. -/
theorem Sound.count_pos {b b' : Balancer} (hb : b.Sound) {callback : Callback} {old : Connectivity}
    (h : b.CountsOut callback b' old) : 0 < b'.tally.count old := by
  cases h with
  | report hold => exact hb.counts.pos hold
  | @release _ _ _ b' front _ _ _ _ hadopt _ _ hold =>
    have hcleared : ({ b with resolverError := none } : Balancer).Sound := hb.congr rfl
    obtain ⟨hadopted, -⟩ := hcleared.adopt hadopt
    exact (hadopted.releaseAll front).counts.pos hold

/-! ## Histories -/

/-- A balancer that was built with `p` after a history, together with all that the transport saw. -/
def run (p : Partitioner) (callbacks : List Callback) : Outcome :=
  callbacks.foldl (fun o callback => (o.balancer.handle callback).after o.actions)
    { balancer := { partitioner := p } }

/-- One more callback is handled where the history before it ended. -/
theorem run_concat (p : Partitioner) (callbacks : List Callback) (callback : Callback) :
    run p (callbacks ++ [callback]) =
      ((run p callbacks).balancer.handle callback).after (run p callbacks).actions := by
  rw [run, List.foldl_append, List.foldl_cons, List.foldl_nil, ← run]

/-- What holds at first and is kept by every step holds after every history. -/
theorem run_induction {P : List Action → Balancer → Prop} {p : Partitioner}
    (hnew : P [] { partitioner := p })
    (hstep : ∀ {log actions b b'}, P log b → Step b actions b' → P (log ++ actions) b')
    (callbacks : List Callback) : P (run p callbacks).actions (run p callbacks).balancer := by
  have hsteps {log actions : List Action} {b b' : Balancer} (hb : P log b)
      (h : Steps b actions b') : P (log ++ actions) b' := by
    induction h generalizing log with
    | refl => rwa [List.append_nil]
    | cons h _ ih =>
      rw [← List.append_assoc]
      exact ih (hstep hb h)
  induction callbacks using List.reverseRecOn with
  | nil => exact hnew
  | append_singleton callbacks callback ih =>
    rw [run_concat]
    exact hsteps ih (steps_handle _ callback)

/-- Over an honest transport every history leaves the balancer sound. -/
theorem soundAfter_run (p : Partitioner) (callbacks : List Callback)
    (hhonest : Honest (run p callbacks).actions) :
    (run p callbacks).balancer.SoundAfter (run p callbacks).actions := by
  refine run_induction (P := fun log b => Honest log → b.SoundAfter log) ?_ ?_ callbacks hhonest
  · exact fun _ => ⟨sound_new p, fun a c hc => by simp at hc⟩
  · intro log actions b b' hb h hhonest
    exact (hb (hhonest.of_prefix (List.prefix_append ..))).step h hhonest

/-- What holds of a balancer after every history. -/
theorem run_holdings_agree (p : Partitioner) (callbacks : List Callback)
    (hhonest : Honest (run p callbacks).actions) :
    let b := (run p callbacks).balancer
    (b.ring = none → b.connections = ∅) ∧
      (∀ members, b.ring = some members → b.policy.map (·.factor) = some members.factor ∧
        ∀ key c, members.get? key = some c ↔
          ∃ a : Address, b.connections[a]? = some c ∧ a.ringKey = key) ∧
      (∀ (a : Address) c, b.connections[a]? = some c → c.address = a) ∧
      (∀ a a' : Address, a ∈ b.connections → a' ∈ b.connections →
        a.ringKey = a'.ringKey → a = a') ∧
      (∀ (id : Nat) s, b.states[id]? = some s →
        s ≠ .shutdown ∧ ∃ (a : Address) (c : Connection), b.connections[a]? = some c ∧ c.id = id) ∧
      (∀ s, b.tally.count s = b.states.values.count s) ∧
      ∀ callback b' old, b.CountsOut callback b' old → 0 < b'.tally.count old := by
  intro b
  have hb : b.Sound := (soundAfter_run p callbacks hhonest).sound
  refine ⟨hb.connections_eq_empty, fun members hring => ?_, hb.bound, ?_, hb.tracked, hb.counts, ?_⟩
  · have hcarries := hb.carries members hring
    exact ⟨hcarries.factor_eq, hcarries.mirrors⟩
  · intro a a' ha ha' hkey
    exact hb.eq_of_ringKey_eq ha ha' hkey
  · intro callback b' old h
    exact hb.count_pos h

/-- A node that is ready moves to another address, and another handle takes its place on the
ring. -/
theorem run_moved_holdings_agree :
    let before : Address := ⟨"h:1", "", some "n"⟩
    let after : Address := ⟨"h:2", "", some "n"⟩
    let callbacks : List Callback := [.update (fun _ a => some ⟨0, a⟩) [before] (some ⟨2, 1⟩),
      .report 0 .ready none, .update (fun _ a => some ⟨1, a⟩) [after] none]
    let b := (run Ring.crowded callbacks).balancer
    Honest (run Ring.crowded callbacks).actions ∧ b.tally = { idle := 1 } ∧
    b.states.values.count .ready = 0 ∧
      ∀ members, b.ring = some members → members.get? "n" = some ⟨1, after⟩ := by
  intro before after callbacks b
  have hhonest : Honest (run Ring.crowded callbacks).actions := ⟨by decide, by decide⟩
  obtain ⟨-, hring, -, -, -, hcounts, -⟩ := run_holdings_agree _ _ hhonest
  refine ⟨hhonest, by decide, ?_, fun members h => ?_⟩
  · rw [← hcounts .ready]
    decide
  · exact ((hring members h).2 "n" ⟨1, after⟩).mpr ⟨after, by decide, rfl⟩

end Balancer

end RingRouting
