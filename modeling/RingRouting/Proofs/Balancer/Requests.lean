import RingRouting.Proofs.Balancer.Update

/-!
# What the transport sees of callbacks

Of a callback the transport sees which handles are torn down, which ones it is asked to make and
which ones are told to connect. In an update releasing connections tears their handles down and does
nothing else; requests tear nothing down; and what the update does at its end concerns no handle. A
handle that stays is still known by the same state, because no other connection has that handle. A
report may have its handle told to connect, and no other one. Main statements:
`tornDown_releaseAll`, `requested_flatMap`, `Distinct.states_releaseAll` and `requested_report`.
-/

namespace RingRouting

/-- The handles that were told to connect. -/
def requested (actions : List Action) : List Nat :=
  actions.filterMap fun
    | .connect id => some id
    | _ => none

theorem requested_append (actions actions' : List Action) :
    requested (actions ++ actions') = requested actions ++ requested actions' :=
  List.filterMap_append ..

/-- The actions make no handle and ask none to connect. -/
def Quiet (actions : List Action) : Prop :=
  dialed actions = [] ∧ requested actions = []

theorem Quiet.append {actions actions' : List Action} (h : Quiet actions) (h' : Quiet actions') :
    Quiet (actions ++ actions') := by
  rw [Quiet, dialed_append, requested_append, h.1, h.2, h'.1, h'.2]
  exact ⟨rfl, rfl⟩

/-- Requests are answered one after the other, each with as many handles made before as were
granted. -/
theorem answers_append (dial : Nat → Address → Option Connection) (made : Nat)
    (as as' : List Address) :
    answers dial made (as ++ as') = answers dial made as ++
      answers dial (made + (handles (answers dial made as)).length) as' := by
  induction as generalizing made with
  | nil => rfl
  | cons a rest ih =>
    rw [List.cons_append, answers, answers]
    cases hdial : dial made a with
    | none =>
      dsimp only
      rw [ih, List.cons_append]
      rfl
    | some c =>
      dsimp only
      rw [ih, List.cons_append, handles_cons_some, List.length_cons, Nat.add_right_comm,
        Nat.add_assoc]

namespace Balancer

variable {b b' : Balancer} {dial : Nat → Address → Option Connection}
variable {desired : Std.ExtTreeSet Address} {o : Outcome}

/-! ## Handles that stay -/

/-- No two connections have the same handle. -/
def Distinct (connections : Std.ExtTreeMap Address Connection) : Prop :=
  ∀ (a a' : Address) c c', connections[a]? = some c → connections[a']? = some c' → c.id = c'.id →
    a = a'

/-- Over an honest transport no handle is held for two addresses. -/
theorem SoundAfter.distinct {log : List Action} (hb : b.SoundAfter log) (hhonest : Honest log) :
    Distinct b.connections := by
  intro a a' c c' ha ha' hid
  have heq := List.inj_on_of_nodup_map hhonest.nodup (hb.made a c ha) (hb.made a' c' ha') hid
  exact (Prod.mk.inj heq).2

/-- Where others are let go of, the state of a handle stays. -/
theorem Distinct.states_releaseAll (as : List Address) {b : Balancer} (h : Distinct b.connections)
    {a : Address} {c : Connection} (hc : (b.releaseAll as).balancer.connections[a]? = some c) :
    (b.releaseAll as).balancer.states[c.id]? = b.states[c.id]? := by
  induction as generalizing b with
  | nil => rfl
  | cons a' rest ih =>
    have hsub (a : Address) (c : Connection)
        (ha : (b.release a').balancer.connections[a]? = some c) :
        a' ≠ a ∧ b.connections[a]? = some c := by
      rw [getElem?_release] at ha
      split at ha
      next => cases ha
      next hne => exact ⟨hne, ha⟩
    have hrest : Distinct (b.release a').balancer.connections :=
      fun a a' c c' ha ha' => h a a' c c' (hsub a c ha).2 (hsub a' c' ha').2
    refine (ih hrest hc).trans ?_
    have hheld : (b.release a').balancer.connections[a]? = some c := by
      have hall := getElem?_releaseAll rest (b.release a').balancer a
      split at hall
      next => exact absurd (hc.symm.trans hall) nofun
      next => exact hall.symm.trans hc
    obtain ⟨hne, hheld⟩ := hsub a c hheld
    unfold release
    split
    next => rfl
    next c' hc' =>
      -- another address has another handle
      have hid : c'.id ≠ c.id := fun hid => hne (h a' a c' c hc' hheld hid)
      simp [Std.ExtTreeMap.getElem?_erase, hid]

/-! ## What the parts of an update do to handles -/

/-- Torn down are the handles that are held for the addresses, in their order. -/
theorem tornDown_releaseAll {as : List Address} (hnodup : as.Nodup) (b : Balancer) :
    tornDown (b.releaseAll as).actions = as.filterMap fun a => b.connections[a]?.map (·.id) := by
  induction as generalizing b with
  | nil => rfl
  | cons a rest ih =>
    obtain ⟨hnotin, hnodup⟩ := List.nodup_cons.mp hnodup
    have hrelease : tornDown (b.release a).actions = (b.connections[a]?.map (·.id)).toList := by
      unfold release
      split
      next hnone => rw [hnone]; rfl
      next hheld => rw [hheld]; rfl
    -- for the others the same is held as before
    have hrest : (rest.filterMap fun a' => (b.release a).balancer.connections[a']?.map (·.id)) =
        rest.filterMap fun a' => b.connections[a']?.map (·.id) := by
      refine List.filterMap_congr fun a' ha' => ?_
      have hne : a ≠ a' := fun heq => hnotin (heq ▸ ha')
      rw [getElem?_release, if_neg hne]
    rw [releaseAll, Outcome.actions_after, tornDown_append, hrelease, ih hnodup, hrest]
    cases hheld : b.connections[a]? with
    | none => simp [hheld]
    | some c => simp [hheld]

/-- No address is stale twice. -/
theorem nodup_stale (b : Balancer) (desired : Std.ExtTreeSet Address) :
    (b.stale desired).Nodup := by
  refine List.Nodup.filter _ (Std.ExtTreeMap.distinct_keys.imp fun {a a'} hne heq => ?_)
  subst heq
  exact hne Std.ReflCmp.compare_self

theorem quiet_releaseAll (as : List Address) (b : Balancer) : Quiet (b.releaseAll as).actions := by
  induction as generalizing b with
  | nil => exact ⟨rfl, rfl⟩
  | cons a rest ih =>
    have hrelease : Quiet (b.release a).actions := by
      unfold release
      split <;> exact ⟨rfl, rfl⟩
    exact hrelease.append (ih _)

/-- Each handle that is granted is told to connect once. -/
theorem requested_flatMap (requests : List (Address × Option Connection)) :
    requested (requests.flatMap requestActions) = (handles requests).map (·.id) := by
  induction requests with
  | nil => rfl
  | cons request rest ih =>
    rw [List.flatMap_cons, requested_append, ih]
    obtain ⟨a, c⟩ := request
    cases c <;> rfl

/-- The handles that are made are those granted, each for the address that was asked for. -/
theorem dialed_flatMap (requests : List (Address × Option Connection)) :
    dialed (requests.flatMap requestActions) =
      requests.filterMap fun request => request.2.map (·, request.1) := by
  induction requests with
  | nil => rfl
  | cons request rest ih =>
    rw [List.flatMap_cons, dialed_append, ih]
    obtain ⟨a, c⟩ := request
    cases c <;> rfl

theorem tornDown_flatMap (requests : List (Address × Option Connection)) :
    tornDown (requests.flatMap requestActions) = [] := by
  induction requests with
  | nil => rfl
  | cons request rest ih =>
    rw [List.flatMap_cons, tornDown_append, ih]
    obtain ⟨a, c⟩ := request
    cases c <;> rfl

theorem quiet_failResolution (b : Balancer) (e : BalancerError) :
    Quiet (b.failResolution e).actions := by
  unfold failResolution
  dsimp only
  split <;> split <;> exact ⟨rfl, rfl⟩

theorem quiet_conclude (b : Balancer) (noAddresses : Bool) :
    Quiet (b.conclude noAddresses).actions := by
  have hcount : Quiet (b.ring.toList.map fun members => Action.counted members.size) := by
    cases b.ring <;> exact ⟨rfl, rfl⟩
  unfold conclude
  split
  next => exact hcount.append (b.quiet_failResolution _)
  next => exact hcount.append ⟨rfl, rfl⟩

theorem tornDown_conclude (b : Balancer) (noAddresses : Bool) :
    tornDown (b.conclude noAddresses).actions = [] := by
  have hcount : tornDown (b.ring.toList.map fun members => Action.counted members.size) = [] := by
    cases b.ring <;> rfl
  have hfail (e : BalancerError) : tornDown (b.failResolution e).actions = [] := by
    unfold failResolution
    dsimp only
    split <;> split <;> rfl
  unfold conclude
  split
  next => exact (tornDown_append _ _).trans (by rw [hcount, hfail]; rfl)
  next => exact (tornDown_append _ _).trans (by rw [hcount]; rfl)

/-! ## What is asked for and under which policy -/

/-- What is missing is not changed by what is let go of. -/
theorem missing_retained (b : Balancer) (desired : Std.ExtTreeSet Address) :
    (b.retained desired).missing desired = b.missing desired := by
  refine List.filter_congr fun a ha => ?_
  rw [Std.ExtTreeSet.mem_toList] at ha
  rw [Std.ExtTreeMap.contains_eq_isSome_getElem?, getElem?_retained, if_pos ha,
    ← Std.ExtTreeMap.contains_eq_isSome_getElem?]

/-- The policy that came with a resolution is in force, with its defaults, or else the one from
before. -/
theorem policy_adopt {policy : Option Policy} (h : b.adopt policy = .ok b') :
    b'.policy = (policy.map (·.withDefaults)).or b.policy := by
  cases policy with
  | none =>
    cases h
    rfl
  | some p =>
    obtain ⟨members, rfl⟩ := exists_configure_eq h
    rfl

/-- The policy that is in force stays in force. -/
theorem Reconciled.policy_eq (h : Reconciled dial b desired o) : o.balancer.policy = b.policy := by
  cases h with
  | @reject b' _ _ _ _ _ _ _ hdials =>
    obtain ⟨_, _, _, _, heq⟩ := hdials.exists_retained_eq
    have hpolicy : b'.policy = b.policy := by rw [heq]
    exact hpolicy
  | @settle b' settled hdials hsettled =>
    obtain ⟨_, _, _, _, heq⟩ := hdials.exists_retained_eq
    rw [Outcome.balancer_after, policy_eq_of_holdings (holdings_settled _ hsettled), heq]

/-! ## Reports -/

/-- A handle is told to connect that reports to be idle while something is recorded of it. -/
theorem requested_report (b : Balancer) (id : Nat) (new : Connectivity)
    (cause : Option BalancerError) :
    requested (b.report id new cause).actions =
      if new = .idle ∧ b.states[id]?.isSome then [id] else [] := by
  have hreconnect : requested (if new = .idle then [.connect id] else []) =
      if new = .idle then [id] else [] := by
    split <;> rfl
  have hreported := b.reported_report id new cause
  generalize b.report id new cause = o at hreported ⊢
  cases hreported with
  | pass hnone => simp [hnone, requested]
  | skip hold => simp [hold, hreconnect]
  | record hold =>
    rw [requested_append, hreconnect]
    simp [hold, requested, Balancer.publication]

theorem dialed_report (b : Balancer) (id : Nat) (new : Connectivity)
    (cause : Option BalancerError) :
    dialed (b.report id new cause).actions = [] := by
  have hreconnect : dialed (if new = .idle then [.connect id] else []) = [] := by
    split <;> rfl
  have hreported := b.reported_report id new cause
  generalize b.report id new cause = o at hreported ⊢
  cases hreported with
  | pass => rfl
  | skip => exact hreconnect
  | record =>
    rw [dialed_append, hreconnect]
    rfl

end Balancer

end RingRouting
