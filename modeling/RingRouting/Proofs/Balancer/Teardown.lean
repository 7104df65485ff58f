import Mathlib.Data.List.Nodup
import RingRouting.Proofs.Balancer.History

/-!
# Handles are torn down once

A handle that the transport made is held, until it is torn down. It leaves when its address is no
longer desired, whatever it reported before, or at once when the ring does not take it in. The
balancer keeps no record of what it tore down, so this is said of what the transport saw: the
handles that were made are those that were torn down together with those that are held, and none is
counted twice. Main statement: `run_tears_down_once`.
-/

namespace RingRouting

/-- The handles that were torn down. -/
def tornDown (actions : List Action) : List Nat :=
  actions.filterMap fun
    | .closed id => some id
    | _ => none

theorem tornDown_append (actions actions' : List Action) :
    tornDown (actions ++ actions') = tornDown actions ++ tornDown actions' :=
  List.filterMap_append ..

/-- No handle is torn down before it was made. -/
def Orderly (log : List Action) : Prop :=
  ∀ before id, before ++ [.closed id] <+: log → id ∈ (dialed before).map (·.1.id)

/-- A log stays orderly if what is torn down next was made before. -/
theorem Orderly.concat {log : List Action} (h : Orderly log) {action : Action}
    (haction : ∀ id, action = .closed id → id ∈ (dialed log).map (·.1.id)) :
    Orderly (log ++ [action]) := by
  intro before id hprefix
  rcases List.prefix_concat_iff.mp hprefix with heq | hbefore
  · obtain ⟨rfl, hclosed⟩ := List.append_inj' heq rfl
    exact haction id (List.singleton_inj.mp hclosed).symm
  · exact h before id hbefore

/-- A log stays orderly if nothing is torn down. -/
theorem Orderly.append {actions : List Action} (hnone : tornDown actions = []) {log : List Action}
    (h : Orderly log) : Orderly (log ++ actions) := by
  induction actions generalizing log with
  | nil => rwa [List.append_nil]
  | cons action rest ih =>
    rw [List.append_cons]
    cases action with
    | closed id => cases hnone
    | dialed | refused | connect | published | counted => exact ih hnone (h.concat nofun)

namespace Balancer

/-- The handles that are held. -/
def held (b : Balancer) : List Nat :=
  b.connections.values.map (·.id)

theorem held_eq_of_holdings {b b' : Balancer} (h : b'.holdings = b.holdings) :
    b'.held = b.held := by
  rw [held, held, connections_eq_of_holdings h]

/-- A handle is held for some address. -/
theorem mem_held {b : Balancer} {id : Nat} :
    id ∈ b.held ↔ ∃ (a : Address) (c : Connection), b.connections[a]? = some c ∧ c.id = id := by
  rw [held, List.mem_map]
  constructor
  · intro hcase
    obtain ⟨c, hc, hid⟩ := hcase
    obtain ⟨a, ha⟩ := TreeMap.mem_values.mp hc
    exact ⟨a, c, ha, hid⟩
  · intro hcase
    obtain ⟨a, c, ha, hid⟩ := hcase
    exact ⟨c, TreeMap.mem_values.mpr ⟨a, ha⟩, hid⟩

/-- Each handle that was made is accounted for. -/
structure Accounted (log : List Action) (b : Balancer) : Prop where
  /-- It was torn down or is held, once and not both. -/
  perm : ((dialed log).map (·.1.id)).Perm (tornDown log ++ b.held)
  orderly : Orderly log

/-! ## One step -/

/-- Actions that make and tear down nothing change no account. -/
theorem Accounted.append {log actions : List Action} {b b' : Balancer} (hb : b.Accounted log)
    (hdialed : dialed actions = []) (htorn : tornDown actions = []) (hheld : b'.held = b.held) :
    b'.Accounted (log ++ actions) := by
  refine ⟨?_, hb.orderly.append htorn⟩
  rw [dialed_append, tornDown_append, hdialed, htorn, hheld, List.append_nil, List.append_nil]
  exact hb.perm

/-- What is let go of was held, and is torn down instead. -/
theorem Accounted.release {log : List Action} {b : Balancer} (hb : b.Accounted log) {a : Address}
    {c : Connection} (ha : b.connections[a]? = some c) :
    (b.release a).balancer.Accounted (log ++ [.closed c.id]) := by
  have hheld : b.held.Perm (c.id :: (b.release a).balancer.held) := by
    have hconnections : (b.release a).balancer.connections = b.connections.erase a := by
      rw [Balancer.release, ha]
    rw [held, held, hconnections]
    exact (TreeMap.perm_values_erase ha).map (·.id)
  have hdialed : dialed [.closed c.id] = [] := rfl
  refine ⟨?_, hb.orderly.concat ?_⟩
  · rw [dialed_append, hdialed, List.append_nil, tornDown_append, List.append_assoc]
    exact hb.perm.trans (hheld.append_left _)
  · intro id hid
    cases hid
    exact hb.perm.mem_iff.mpr (List.mem_append_right _ (hheld.mem_iff.mpr (List.mem_cons_self ..)))

/-- What was made is held, where nothing was held before. -/
theorem Accounted.hold {log : List Action} {b : Balancer} (hb : b.Accounted log) {a : Address}
    {c : Connection} (ha : b.connections[a]? = none) (members : Ring Connection) :
    (b.hold a c members).Accounted (log ++ [.dialed c a, .connect c.id]) := by
  have hheld : (b.hold a c members).held.Perm (c.id :: b.held) :=
    (TreeMap.perm_values_insert ha c).map Connection.id
  have htorn : tornDown [.dialed c a, .connect c.id] = [] := rfl
  refine ⟨?_, hb.orderly.append htorn⟩
  rw [dialed_append, List.map_append, tornDown_append, htorn, List.append_nil]
  refine (hb.perm.append_right [c.id]).trans ?_
  rw [List.append_assoc]
  exact ((List.perm_append_singleton c.id b.held).trans hheld.symm).append_left _

/-- What was made in vain is torn down at once. -/
theorem Accounted.reject {log : List Action} {b : Balancer} (hb : b.Accounted log) (a : Address)
    (c : Connection) : b.Accounted (log ++ [.dialed c a, .closed c.id]) := by
  refine ⟨?_, ?_⟩
  · rw [dialed_append, List.map_append, tornDown_append, List.append_assoc]
    refine (hb.perm.append_right [c.id]).trans ?_
    rw [List.append_assoc]
    exact (List.perm_append_singleton c.id b.held).append_left _
  · have hdialed : Orderly (log ++ [.dialed c a]) := hb.orderly.append rfl
    rw [List.append_cons]
    refine hdialed.concat fun id hid => ?_
    cases hid
    rw [dialed_append, List.map_append]
    exact List.mem_append_right _ (List.mem_cons_self ..)

/-- What one step makes, tears down and holds comes out even. -/
theorem Accounted.step {log actions : List Action} {b b' : Balancer} (hb : b.Accounted log)
    (hsound : b.Sound) (hhonest : Honest (log ++ actions)) (h : Step b actions b') :
    b'.Accounted (log ++ actions) := by
  cases h with
  | adopt hadopt => exact hb.append rfl rfl (by rw [held, held, (hsound.adopt hadopt).2])
  | release ha => exact hb.release ha
  | @hold a c _ _ hring hadd =>
    have ha : c.address = a := by
      refine hhonest.address_eq (c, a) ?_
      rw [dialed_append]
      exact List.mem_append_right _ (List.mem_cons_self ..)
    exact hb.hold (hsound.getElem?_eq_none hring (Ring.added_of_add hadd) ha) _
  | reject => exact hb.reject _ _
  | settle h =>
    have hconnections : b'.connections = b.connections := connections_eq_of_holdings h
    exact hb.append rfl rfl (by rw [held, held, hconnections])
  | refuse | track | reconnect | publish | count => exact hb.append rfl rfl rfl

/-! ## Histories -/

/-- Over an honest transport every handle of a history is accounted for. -/
theorem accounted_run (p : Partitioner) (callbacks : List Callback)
    (hhonest : Honest (run p callbacks).actions) :
    (run p callbacks).balancer.Accounted (run p callbacks).actions := by
  suffices h : (run p callbacks).balancer.SoundAfter (run p callbacks).actions ∧
      (run p callbacks).balancer.Accounted (run p callbacks).actions from h.2
  refine run_induction (P := fun log b => Honest log → b.SoundAfter log ∧ b.Accounted log)
    ?_ ?_ callbacks hhonest
  · refine fun hhonest => ⟨soundAfter_run p [] hhonest, .nil, fun before id hprefix => ?_⟩
    simp at hprefix
  · intro log actions b b' hb h hhonest
    obtain ⟨hsound, haccounted⟩ := hb (hhonest.of_prefix (List.prefix_append ..))
    exact ⟨hsound.step h hhonest, haccounted.step hsound.sound hhonest h⟩

/-- With a handle for each number, a handle that was made is held and not torn down, or torn down
once and not held. -/
theorem Accounted.held_or_torn {log : List Action} {b : Balancer} (hb : b.Accounted log)
    (hhonest : Honest log) {id : Nat} (hmade : id ∈ (dialed log).map (·.1.id)) :
    (id ∈ b.held ∧ (tornDown log).count id = 0) ∨ (id ∉ b.held ∧ (tornDown log).count id = 1) := by
  have hnodup := hb.perm.nodup_iff.mp hhonest.nodup
  rw [List.nodup_append] at hnodup
  obtain ⟨htorn, -, hdisjoint⟩ := hnodup
  rcases List.mem_append.mp (hb.perm.mem_iff.mp hmade) with hid | hid
  · exact .inr ⟨fun hheld => hdisjoint id hid id hheld rfl, List.count_eq_one_of_mem htorn hid⟩
  · exact .inl ⟨hid, List.count_eq_zero.mpr fun hclosed => hdisjoint id hclosed id hid rfl⟩

/-- What stands on the ring is held. -/
theorem Sound.mem_held {b : Balancer} (hb : b.Sound) {members : Ring Connection}
    (hring : b.ring = some members) {key : String} {c : Connection}
    (hc : members.get? key = some c) : c.id ∈ b.held := by
  obtain ⟨a, ha, -⟩ := ((hb.carries members hring).mirrors key c).mp hc
  exact Balancer.mem_held.mpr ⟨a, c, ha, rfl⟩

/-- A handle that is held is held for the address that it was made for. -/
theorem SoundAfter.getElem?_eq {log : List Action} {b : Balancer} (hb : b.SoundAfter log)
    (hhonest : Honest log) {a : Address} {c : Connection} (hmade : (c, a) ∈ dialed log)
    (hheld : c.id ∈ b.held) : b.connections[a]? = some c := by
  obtain ⟨a', c', ha', hid⟩ := Balancer.mem_held.mp hheld
  have heq := List.inj_on_of_nodup_map hhonest.nodup (hb.made a' c' ha') hmade hid
  cases heq
  exact ha'

/-- What the transport saw of a history stays at the front of what it sees of a longer one. -/
theorem prefix_run (p : Partitioner) (callbacks later : List Callback) :
    (run p callbacks).actions <+: (run p (callbacks ++ later)).actions := by
  induction later using List.reverseRecOn with
  | nil => exact (List.append_nil callbacks).symm ▸ List.prefix_refl _
  | append_singleton later callback ih =>
    rw [← List.append_assoc, run_concat]
    exact ih.trans (List.prefix_append ..)

/-- What becomes of a handle that was made, after every history and all that follows it. -/
theorem run_tears_down_once (p : Partitioner) (callbacks later : List Callback)
    (hhonest : Honest (run p (callbacks ++ later)).actions) :
    let o := run p callbacks
    (∀ c a, (c, a) ∈ dialed o.actions →
      (o.balancer.connections[a]? = some c ∧ (tornDown o.actions).count c.id = 0) ∨
        (c.id ∉ o.balancer.held ∧
          (∀ members, o.balancer.ring = some members →
            ∀ key m, members.get? key = some m → m.id ≠ c.id) ∧
          (tornDown o.actions).count c.id = 1 ∧
          c.id ∉ (run p (callbacks ++ later)).balancer.held)) ∧
      ∀ before id, before ++ [.closed id] <+: o.actions → ∃ c a, (c, a) ∈ dialed before ∧
        c.id = id := by
  intro o
  have hlater := prefix_run p callbacks later
  have hb := soundAfter_run p callbacks (hhonest.of_prefix hlater)
  have haccounted := accounted_run p callbacks (hhonest.of_prefix hlater)
  refine ⟨fun c a hmade => ?_, fun before id hprefix => ?_⟩
  · have hid := List.mem_map_of_mem (f := (·.1.id)) hmade
    rcases haccounted.held_or_torn (hhonest.of_prefix hlater) hid with
      ⟨hheld, hcount⟩ | ⟨hheld, hcount⟩
    · exact .inl ⟨hb.getElem?_eq (hhonest.of_prefix hlater) hmade hheld, hcount⟩
    · refine .inr ⟨hheld, fun members hring key m hm heq => ?_, hcount, fun hagain => ?_⟩
      · exact hheld (heq ▸ hb.sound.mem_held hring hm)
      · -- what was torn down stays so, and then it is not held
        have htorn : c.id ∈ tornDown (run p (callbacks ++ later)).actions :=
          (hlater.filterMap _).subset (List.count_pos_iff.mp (hcount ▸ Nat.one_pos))
        have hnodup :=
          (accounted_run p (callbacks ++ later) hhonest).perm.nodup_iff.mp hhonest.nodup
        exact (List.nodup_append.mp hnodup).2.2 _ htorn _ hagain rfl
  · obtain ⟨⟨c, a⟩, hmade, hid⟩ := List.mem_map.mp (haccounted.orderly before id hprefix)
    exact ⟨c, a, hmade, hid⟩

/-- Handles leave in three ways: one that reported that it is shut down, another one whose address
is no longer desired, and one that the ring does not take in. What is left goes with the last
address. -/
theorem run_conflict_tears_down_once :
    let node (addr : String) (id : String) : Address := ⟨addr, "", some id⟩
    let callbacks : List Callback :=
      [.update (fun made a => some ⟨made, a⟩) [node "h:1" "n", node "h:5" "m"] (some ⟨2, 1⟩),
        .report 0 .shutdown none,
        .update (fun made a => some ⟨2 + made, a⟩) [node "h:2" "n", node "h:3" "n"] none]
    let o := run Ring.crowded callbacks
    tornDown o.actions = [0, 1, 3] ∧
    o.balancer.connections[node "h:2" "n"]? = some ⟨2, node "h:2" "n"⟩ ∧
      3 ∉ (run Ring.crowded (callbacks ++ [.update (fun _ _ => none) [] none])).balancer.held := by
  intro node callbacks o
  have hhonest : Honest (run Ring.crowded
      (callbacks ++ [.update (fun _ _ => none) [] none])).actions := ⟨by decide, by decide⟩
  obtain ⟨hmade, -⟩ := run_tears_down_once _ _ _ hhonest
  have htorn : tornDown o.actions = [0, 1, 3] := by decide
  refine ⟨htorn, ?_, ?_⟩
  · rcases hmade ⟨2, node "h:2" "n"⟩ (node "h:2" "n") (by decide) with
      ⟨hheld, -⟩ | ⟨-, -, hcount, -⟩
    · exact hheld
    · exact absurd hcount (by decide)
  · rcases hmade ⟨3, node "h:3" "n"⟩ (node "h:3" "n") (by decide) with
      ⟨-, hcount⟩ | ⟨-, -, -, hagain⟩
    · exact absurd hcount (by decide)
    · exact hagain

end Balancer

end RingRouting
