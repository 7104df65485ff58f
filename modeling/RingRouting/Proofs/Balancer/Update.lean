import RingRouting.Proofs.Balancer.Publication

/-!
# What an update does

An update lets go of the connections that are no longer desired and then asks the transport for
handles, address by address. The transport may refuse, and the ring may not take in what it made:
that ends the update before the addresses behind it, and before the state of all connections is
taken down. Main statements: `dialed_dialAll` and `reconciled_reconcile`, which say all that becomes
of the requests and of the update.
-/

namespace RingRouting

/-- The actions around a request for a handle. A handle that the ring takes in is told to
connect. -/
def requestActions : Address × Option Connection → List Action
  | (a, none) => [.refused a]
  | (a, some c) => [.dialed c a, .connect c.id]

/-- The handles among the answers to requests. -/
def handles (requests : List (Address × Option Connection)) : List Connection :=
  requests.filterMap (·.2)

theorem handles_cons_some (a : Address) (c : Connection)
    (rest : List (Address × Option Connection)) :
    handles ((a, some c) :: rest) = c :: handles rest := rfl

/-- A handle is granted for some address. -/
theorem mem_handles {requests : List (Address × Option Connection)} {c : Connection} :
    c ∈ handles requests ↔ ∃ a, (a, some c) ∈ requests := by
  simp [handles, List.mem_filterMap]

/-- What the transport answers when it is asked for handles one after the other, having made `made`
of them before. -/
def answers (dial : Nat → Address → Option Connection) : Nat → List Address →
    List (Address × Option Connection)
  | _, [] => []
  | made, a :: rest =>
    match dial made a with
    | none => (a, none) :: answers dial made rest
    | some c => (a, some c) :: answers dial (made + 1) rest

/-- Every request is answered, in the order of requests. -/
theorem map_fst_answers (dial : Nat → Address → Option Connection) (made : Nat)
    (as : List Address) :
    (answers dial made as).map (·.1) = as := by
  induction as generalizing made with
  | nil => rfl
  | cons a rest ih =>
    unfold answers
    split
    next => rw [List.map_cons, ih]
    next => rw [List.map_cons, ih]

/-- What is answered was asked for. -/
theorem mem_of_mem_answers {dial : Nat → Address → Option Connection} {made : Nat}
    {as : List Address}
    {a : Address} {c : Option Connection} (h : (a, c) ∈ answers dial made as) : a ∈ as := by
  rw [← map_fst_answers dial made as]
  exact List.mem_map_of_mem h

/-- What succeeds in two parts succeeds in the first. -/
theorem exists_of_bind_eq_ok {ε α β : Type} {x : Except ε α} {f : α → Except ε β} {y : β}
    (h : x >>= f = .ok y) : ∃ a, x = .ok a ∧ f a = .ok y := by
  cases x with
  | error e => cases h
  | ok a => exact ⟨a, rfl, h⟩

namespace Balancer

/-! ## Requests for handles -/

/-- Requests that were answered so lead from one balancer to the other, the ring taking in all
handles. -/
inductive Dials : Balancer → List (Address × Option Connection) → Balancer → Prop
  | nil (b : Balancer) : Dials b [] b
  | refuse {b b' : Balancer} {a : Address} {rest : List (Address × Option Connection)}
      (hrest : Dials b rest b') : Dials b ((a, none) :: rest) b'
  | hold {b b' : Balancer} {a : Address} {c : Connection} {members members' : Ring Connection}
      {rest : List (Address × Option Connection)} (hring : b.ring = some members)
      (hadd : members.add c = .ok members') (hrest : Dials (b.hold a c members') rest b') :
      Dials b ((a, some c) :: rest) b'

/-- How requests for handles end. -/
inductive Dialed (dial : Nat → Address → Option Connection) (b : Balancer) (made : Nat)
    (as : List Address) : Outcome → Prop
  /-- All were answered, and the ring took in all handles. -/
  | all {b' : Balancer} (hdials : Dials b (answers dial made as) b') :
      Dialed dial b made as
        { balancer := b', actions := (answers dial made as).flatMap requestActions }
  /-- The ring did not take in a handle, which is torn down. Those behind it are not asked for. -/
  | reject {b' : Balancer} {front rest : List Address} {a : Address} {c : Connection}
      {members : Ring Connection} {e : RingError} (has : as = front ++ a :: rest)
      (hdials : Dials b (answers dial made front) b')
      (hdial : dial (made + (handles (answers dial made front)).length) a = some c)
      (hring : b'.ring = some members) (hadd : members.add c = .error e) :
      Dialed dial b made as
        { balancer := { b' with picker := .failing (.ring e) }
          actions := (answers dial made front).flatMap requestActions ++
            [.dialed c a, .closed c.id, .published b'.state (.failing (.ring e))]
          error := some (.ring e) }

variable {dial : Nat → Address → Option Connection} {b b' : Balancer} {made : Nat}
    {as rest : List Address}
variable {a : Address} {c : Connection} {o : Outcome}

/-- A request for which no handle is made, before the others. -/
theorem Dialed.refuse (hdial : dial made a = none) (h : Dialed dial b made rest o) :
    Dialed dial b made (a :: rest) (o.after [.refused a]) := by
  have hanswers (as : List Address) :
      answers dial made (a :: as) = (a, none) :: answers dial made as := by
    rw [answers, hdial]
  cases h with
  | all hdials =>
    have hdials : Dials b (answers dial made (a :: rest)) _ := hanswers rest ▸ hdials.refuse
    have hall := Dialed.all hdials
    rwa [hanswers] at hall
  | @reject _ front back a' c' _ _ has hdials hdial' hring hadd =>
    have has : a :: rest = (a :: front) ++ a' :: back := congrArg _ has
    have hdials : Dials b (answers dial made (a :: front)) _ := hanswers front ▸ hdials.refuse
    have hreject := Dialed.reject has hdials (by rwa [hanswers]) hring hadd
    rwa [hanswers] at hreject

/-- A request whose handle the ring takes in, before the others. -/
theorem Dialed.hold (hdial : dial made a = some c) {members members' : Ring Connection}
    (hring : b.ring = some members) (hadd : members.add c = .ok members')
    (h : Dialed dial (b.hold a c members') (made + 1) rest o) :
    Dialed dial b made (a :: rest) (o.after [.dialed c a, .connect c.id]) := by
  have hanswers (as : List Address) :
      answers dial made (a :: as) = (a, some c) :: answers dial (made + 1) as := by
    rw [answers, hdial]
  cases h with
  | all hdials =>
    have hdials : Dials b (answers dial made (a :: rest)) _ :=
      hanswers rest ▸ hdials.hold hring hadd
    have hall := Dialed.all hdials
    rwa [hanswers] at hall
  | @reject _ front back a' c' _ _ has hdials hdial' hring' hadd' =>
    have hcount : made + (handles ((a, some c) :: answers dial (made + 1) front)).length =
        made + 1 + (handles (answers dial (made + 1) front)).length := by
      rw [handles_cons_some, List.length_cons, Nat.add_right_comm, Nat.add_assoc]
    have has : a :: rest = (a :: front) ++ a' :: back := congrArg _ has
    have hdials : Dials b (answers dial made (a :: front)) _ :=
      hanswers front ▸ hdials.hold hring hadd
    have hreject := Dialed.reject has hdials (by rwa [hanswers, hcount]) hring' hadd'
    rwa [hanswers] at hreject

/-- What becomes of requests for handles, where there is a ring. -/
theorem dialed_dialAll (dial : Nat → Address → Option Connection) (as : List Address) {b : Balancer}
    (hring : b.ring.isSome) (made : Nat) : Dialed dial b made as (b.dialAll dial made as) := by
  induction as generalizing b made with
  | nil => exact .all (.nil b)
  | cons a rest ih =>
    obtain ⟨members, hmembers⟩ := Option.isSome_iff_exists.mp hring
    unfold Balancer.dialAll
    cases hdial : dial made a with
    | none => exact (ih hring made).refuse hdial
    | some c =>
      simp only [hmembers]
      cases hadd : members.add c with
      | ok members' => exact (ih rfl (made + 1)).hold hdial hmembers hadd
      | error e =>
        have has : a :: rest = [] ++ a :: rest := rfl
        rw [← hmembers]
        exact .reject has (.nil b) hdial hmembers hadd

/-! ## What requests change -/

/-- Requests change connections and what hangs on them, and nothing else. -/
theorem Dials.exists_eq {requests : List (Address × Option Connection)} (h : Dials b requests b') :
    ∃ tally connections states ring, b' = { b with tally, connections, states, ring } := by
  induction h with
  | nil b => exact ⟨_, _, _, _, rfl⟩
  | refuse _ ih => exact ih
  | hold _ _ _ ih =>
    obtain ⟨tally, connections, states, ring, heq⟩ := ih
    exact ⟨tally, connections, states, ring, heq⟩

theorem Dials.steps {requests : List (Address × Option Connection)} (h : Dials b requests b') :
    Steps b (requests.flatMap requestActions) b' := by
  induction h with
  | nil b => exact .refl b
  | refuse _ ih => exact .cons (.refuse _ _) ih
  | hold hring hadd _ ih => exact .cons (.hold hring hadd) ih

/-- Held are the handles that were made, besides those that were held already. -/
theorem Dials.getElem?_connections {requests : List (Address × Option Connection)}
    (h : Dials b requests b') (hnodup : (requests.map (·.1)).Nodup)
    (hfree : ∀ a ∈ requests.map (·.1), b.connections[a]? = none) (a : Address) (c : Connection) :
    b'.connections[a]? = some c ↔ (a, some c) ∈ requests ∨ b.connections[a]? = some c := by
  induction h with
  | nil b => simp
  | refuse _ ih =>
    rw [ih (List.nodup_cons.mp hnodup).2 fun a ha => hfree a (List.mem_cons_of_mem _ ha)]
    simp
  | @hold b b' a' c' _ members' rest _ _ _ ih =>
    obtain ⟨hnotin, hnodup⟩ := List.nodup_cons.mp hnodup
    have ha' : b.connections[a']? = none := hfree _ (List.mem_cons_self ..)
    have hheld (a : Address) : (b.hold a' c' members').connections[a]? =
        if a' = a then some c' else b.connections[a]? := by
      simp [Balancer.hold, Std.ExtTreeMap.getElem?_insert]
    rw [ih hnodup ?_, hheld]
    · -- nothing was held for the address before, so that the new handle replaces none
      by_cases heq : a' = a
      · subst heq
        simp [ha', or_comm, eq_comm]
      · simp [heq, Ne.symm heq]
    · intro a ha
      have hne : a' ≠ a := fun heq => hnotin (heq ▸ ha)
      rw [hheld, if_neg hne, hfree a (List.mem_cons_of_mem _ ha)]

/-- The handles that were granted are idle, and of the others the records stay. -/
theorem Dials.getElem?_states {requests : List (Address × Option Connection)}
    (h : Dials b requests b') (id : Nat) : b'.states[id]? =
      if id ∈ (handles requests).map (·.id) then some .idle else b.states[id]? := by
  induction h with
  | nil b => rfl
  | refuse _ ih => exact ih
  | @hold b b' a' c' _ members' rest _ _ _ ih =>
    have hheld : (b.hold a' c' members').states[id]? =
        if c'.id = id then some .idle else b.states[id]? := by
      simp [Balancer.hold, Std.ExtTreeMap.getElem?_insert]
    rw [ih, hheld, handles_cons_some, List.map_cons]
    by_cases hrest : id ∈ (handles rest).map (·.id)
    · rw [if_pos hrest, if_pos (List.mem_cons_of_mem _ hrest)]
    · have hiff : id ∈ c'.id :: (handles rest).map (·.id) ↔ c'.id = id := by simp [hrest, eq_comm]
      simp only [hiff, if_neg hrest]

/-! ## Connections that stay -/

/-- Letting go of a connection changes these four parts at most. -/
theorem exists_release (b : Balancer) (a : Address) :
    ∃ tally connections states ring,
      (b.release a).balancer = { b with tally, connections, states, ring } := by
  unfold release
  split
  next => exact ⟨_, _, _, _, rfl⟩
  next => exact ⟨_, _, _, _, rfl⟩

theorem exists_releaseAll (b : Balancer) (as : List Address) :
    ∃ tally connections states ring,
      (b.releaseAll as).balancer = { b with tally, connections, states, ring } := by
  induction as generalizing b with
  | nil => exact ⟨_, _, _, _, rfl⟩
  | cons a rest ih =>
    obtain ⟨tally, connections, states, ring, heq⟩ := exists_release b a
    obtain ⟨tally', connections', states', ring', heq'⟩ := ih (b.release a).balancer
    exact ⟨tally', connections', states', ring',
      by rw [releaseAll, Outcome.balancer_after, heq', heq]⟩

/-- The balancer once it let go of what is not desired. -/
def retained (b : Balancer) (desired : Std.ExtTreeSet Address) : Balancer :=
  (b.releaseAll (b.stale desired)).balancer

/-- The desired addresses that no connection is held for. -/
def missing (b : Balancer) (desired : Std.ExtTreeSet Address) : List Address :=
  desired.toList.filter (!b.connections.contains ·)

/-- Kept are the connections for desired addresses. -/
theorem getElem?_retained (b : Balancer) (desired : Std.ExtTreeSet Address) (a : Address) :
    (b.retained desired).connections[a]? = if a ∈ desired then b.connections[a]? else none := by
  rw [retained, getElem?_releaseAll]
  by_cases hdesired : a ∈ desired
  · rw [if_neg fun hstale => (mem_stale.mp hstale).2 hdesired, if_pos hdesired]
  · rw [if_neg hdesired]
    by_cases hheld : a ∈ b.connections
    · rw [if_pos (mem_stale.mpr ⟨hheld, hdesired⟩)]
    · rw [if_neg fun hstale => hheld (mem_stale.mp hstale).1, Std.ExtTreeMap.getElem?_eq_none hheld]

/-- What is missing is desired and not held. -/
theorem mem_missing {b : Balancer} {desired : Std.ExtTreeSet Address} {a : Address} :
    a ∈ b.missing desired ↔ a ∈ desired ∧ a ∉ b.connections := by
  rw [missing, List.mem_filter, Std.ExtTreeSet.mem_toList, Bool.not_eq_true', ← Bool.not_eq_true,
    Std.ExtTreeMap.contains_iff_mem]

/-- No address is missing twice. -/
theorem nodup_missing (b : Balancer) (desired : Std.ExtTreeSet Address) :
    (b.missing desired).Nodup := by
  refine List.Nodup.filter _ (Std.ExtTreeSet.distinct_toList.imp fun hne heq => ?_)
  exact hne (heq ▸ Std.ReflCmp.compare_self)

/-- Held are the new handles and those that were held for desired addresses. -/
theorem Dials.getElem?_of_requests {requests : List (Address × Option Connection)}
    {desired : Std.ExtTreeSet Address} (h : Dials (b.retained desired) requests b')
    (hle : requests.map (·.1) <+: (b.retained desired).missing desired) (a : Address)
    (c : Connection) :
    b'.connections[a]? = some c ↔
      (a, some c) ∈ requests ∨ (a ∈ desired ∧ b.connections[a]? = some c) := by
  have hretained : (b.retained desired).connections[a]? = some c ↔
      a ∈ desired ∧ b.connections[a]? = some c := by
    rw [getElem?_retained]
    by_cases hdesired : a ∈ desired <;> simp [hdesired]
  rw [h.getElem?_connections ((nodup_missing ..).sublist hle.sublist) ?_, hretained]
  intro a' ha'
  exact Std.ExtTreeMap.getElem?_eq_none (mem_missing.mp (hle.subset ha')).2

/-- After an update are held what was granted and what was desired and held before. -/
theorem Dials.getElem?_of_retained {front : List Address} {desired : Std.ExtTreeSet Address}
    (h : Dials (b.retained desired) (answers dial 0 front) b')
    (hle : front <+: (b.retained desired).missing desired) (a : Address) (c : Connection) :
    b'.connections[a]? = some c ↔
      (a, some c) ∈ answers dial 0 front ∨ (a ∈ desired ∧ b.connections[a]? = some c) :=
  h.getElem?_of_requests ((map_fst_answers dial 0 front).symm ▸ hle) a c

/-! ## Updates -/

/-- How an update ends whose policy is in force, where there is a ring. -/
inductive Reconciled (dial : Nat → Address → Option Connection) (b : Balancer)
    (desired : Std.ExtTreeSet Address) : Outcome → Prop
  /-- The ring did not take in a handle. -/
  | reject {b' : Balancer} {front rest : List Address} {a : Address} {c : Connection}
      {members : Ring Connection} {e : RingError}
      (hmissing : (b.retained desired).missing desired = front ++ a :: rest)
      (hdials : Dials (b.retained desired) (answers dial 0 front) b')
      (hdial : dial (0 + (handles (answers dial 0 front)).length) a = some c)
      (hring : b'.ring = some members) (hadd : members.add c = .error e) :
      Reconciled dial b desired
        { balancer := { b' with picker := .failing (.ring e) }
          actions := (b.releaseAll (b.stale desired)).actions ++
            ((answers dial 0 front).flatMap requestActions ++
              [.dialed c a, .closed c.id, .published b'.state (.failing (.ring e))])
          error := some (.ring e) }
  /-- All requests were answered. If there was anything to change, the state of all connections is
  taken down. -/
  | settle {b' settled : Balancer}
      (hdials :
        Dials (b.retained desired) (answers dial 0 ((b.retained desired).missing desired)) b')
      (hsettled : settled =
        if (b.stale desired).isEmpty && ((b.retained desired).missing desired).isEmpty then b'
        else { b' with state := b'.tally.aggregate }) :
      Reconciled dial b desired ((settled.conclude desired.isEmpty).after
        ((b.releaseAll (b.stale desired)).actions ++
          (answers dial 0 ((b.retained desired).missing desired)).flatMap requestActions))

theorem isSome_ring_retained (b : Balancer) (desired : Std.ExtTreeSet Address) :
    (b.retained desired).ring.isSome = b.ring.isSome :=
  isSome_ring_releaseAll ..

/-- An update whose policy is in force ends in one of these ways. -/
theorem reconciled_reconcile (dial : Nat → Address → Option Connection) {b : Balancer}
    (desired : Std.ExtTreeSet Address) (hring : b.ring.isSome) :
    Reconciled dial b desired (b.reconcile dial desired) := by
  have hdialed := dialed_dialAll dial ((b.retained desired).missing desired)
    ((b.isSome_ring_retained desired).trans hring) 0
  unfold Balancer.reconcile
  dsimp only
  unfold retained missing at hdialed
  generalize hd : dialAll dial (b.releaseAll (b.stale desired)).balancer 0 _ = o at hdialed ⊢
  rw [Outcome.error_after]
  split
  next e herror =>
    cases hdialed with
    | all => cases herror
    | reject hmissing hdials hdial hring hadd => exact .reject hmissing hdials hdial hring hadd
  next herror =>
    cases hdialed with
    | all hdials => exact .settle hdials rfl
    | reject => cases herror

theorem exists_retained_eq (b : Balancer) (desired : Std.ExtTreeSet Address) :
    ∃ tally connections states ring,
      b.retained desired = { b with tally, connections, states, ring } :=
  exists_releaseAll ..

/-- Letting go and asking for handles leave everything else alone. -/
theorem Dials.exists_retained_eq {requests : List (Address × Option Connection)}
    {desired : Std.ExtTreeSet Address} (h : Dials (b.retained desired) requests b') :
    ∃ tally connections states ring, b' = { b with tally, connections, states, ring } := by
  obtain ⟨tally, connections, states, ring, heq⟩ := h.exists_eq
  obtain ⟨_, _, _, _, hretained⟩ := b.exists_retained_eq desired
  exact ⟨tally, connections, states, ring, by rw [heq, hretained]⟩

@[simp] theorem holdings_conclude (b : Balancer) (noAddresses : Bool) :
    (b.conclude noAddresses).balancer.holdings = b.holdings := by
  unfold conclude
  split
  next => exact b.holdings_failResolution _
  next => exact b.holdings_repick

/-- Where all requests were answered, what follows changes no holdings. -/
theorem holdings_settled {b' settled : Balancer} {unchanged : Bool} (noAddresses : Bool)
    (hsettled : settled = if unchanged then b' else { b' with state := b'.tally.aggregate }) :
    (settled.conclude noAddresses).balancer.holdings = b'.holdings := by
  rw [holdings_conclude, hsettled]
  split <;> rfl

/-- There is nothing to change where connections are held for exactly the desired addresses. -/
theorem isEmpty_stale_and_missing_iff {b : Balancer} {desired : Std.ExtTreeSet Address} :
    ((b.stale desired).isEmpty && ((b.retained desired).missing desired).isEmpty) ↔
      ∀ a : Address, a ∈ b.connections ↔ a ∈ desired := by
  have hretained (a : Address) (ha : a ∈ desired) :
      a ∈ (b.retained desired).connections ↔ a ∈ b.connections := by
    rw [Std.ExtTreeMap.mem_iff_isSome_getElem?, getElem?_retained, if_pos ha,
      ← Std.ExtTreeMap.mem_iff_isSome_getElem?]
  rw [Bool.and_eq_true, List.isEmpty_iff, List.isEmpty_iff, List.eq_nil_iff_forall_not_mem,
    List.eq_nil_iff_forall_not_mem]
  simp only [mem_stale, mem_missing, not_and, not_not]
  constructor
  · intro h a
    exact ⟨h.1 a, fun ha => (hretained a ha).mp (h.2 a ha)⟩
  · intro h
    exact ⟨fun a => (h a).mp, fun a ha => (hretained a ha).mpr ((h a).mpr ha)⟩

/-- Then no request is made, and nothing is let go of. -/
theorem Dials.eq_of_unchanged {desired : Std.ExtTreeSet Address}
    (h : Dials (b.retained desired) (answers dial 0 ((b.retained desired).missing desired)) b')
    (hunchanged : ∀ a : Address, a ∈ b.connections ↔ a ∈ desired) : b' = b := by
  have hnone := isEmpty_stale_and_missing_iff.mpr hunchanged
  rw [Bool.and_eq_true, List.isEmpty_iff, List.isEmpty_iff] at hnone
  rw [hnone.2] at h
  cases h
  rw [retained, hnone.1, releaseAll]

/-- A policy that is put in force leaves a ring. -/
theorem exists_configure_eq {p : Policy} (h : b.configure p = .ok b') :
    ∃ members, b' = { b with policy := some p, ring := some members } := by
  unfold configure at h
  split at h
  next =>
    obtain ⟨members, -, heq⟩ := exists_of_bind_eq_ok h
    cases heq
    exact ⟨members, rfl⟩
  next members hring =>
    split at h
    next =>
      cases h
      exact ⟨members, by rw [hring]⟩
    next =>
      obtain ⟨members', -, heq⟩ := exists_of_bind_eq_ok h
      cases heq
      exact ⟨members', rfl⟩

/-- An update's policy changes the policy in force and the ring at most. -/
theorem exists_adopt_eq {policy : Option Policy} (h : b.adopt policy = .ok b') :
    ∃ policy ring, b' = { b with policy, ring } := by
  cases policy with
  | none =>
    cases h
    exact ⟨b.policy, b.ring, rfl⟩
  | some p =>
    obtain ⟨members, heq⟩ := exists_configure_eq h
    exact ⟨some p.withDefaults, some members, heq⟩

/-- The desired addresses are those of the list. -/
theorem mem_ofList {addresses : List Address} {a : Address} :
    a ∈ (.ofList addresses : Std.ExtTreeSet Address) ↔ a ∈ addresses := by
  rw [Std.ExtTreeSet.mem_ofList, List.contains_iff_mem]

theorem isEmpty_ofList {addresses : List Address} :
    (.ofList addresses : Std.ExtTreeSet Address).isEmpty ↔ addresses = [] := by
  rw [Std.ExtTreeSet.isEmpty_iff, Std.ExtTreeSet.eq_empty_iff_forall_not_mem,
    List.eq_nil_iff_forall_not_mem]
  simp only [mem_ofList]

/-- How an update ends. -/
inductive Updated (dial : Nat → Address → Option Connection) (b : Balancer)
    (addresses : List Address) (policy : Option Policy) : Outcome → Prop
  /-- There is no ring, as there never was a policy. -/
  | noRing {b' : Balancer}
      (hadopt : ({ b with resolverError := none } : Balancer).adopt policy = .ok b')
      (hring : b'.ring = none) : Updated dial b addresses policy
        { balancer := b'.fail, actions := [b'.fail.publication], error := some .noRing }
  | reconcile {b' : Balancer} {o : Outcome}
      (hadopt : ({ b with resolverError := none } : Balancer).adopt policy = .ok b')
      (hring : b'.ring.isSome) (h : Reconciled dial b' (.ofList addresses) o) :
      Updated dial b addresses policy o

/-- Every update ends in one of these ways. -/
theorem Configured.updated_update (hb : b.Configured) (dial : Nat → Address → Option Connection)
    (addresses : List Address) (policy : Option Policy) :
    Updated dial b addresses policy (b.update dial addresses policy) := by
  have hcleared : ({ b with resolverError := none } : Balancer).Configured := hb.congr rfl rfl
  obtain ⟨b', hadopt, -⟩ := hcleared.exists_adopt policy
  unfold Balancer.update
  simp only [hadopt]
  split
  next hring => exact .noRing hadopt (Option.isNone_iff_eq_none.mp hring)
  next hring =>
    rw [Option.isNone_iff_eq_none, ← ne_eq, Option.ne_none_iff_isSome] at hring
    exact .reconcile hadopt hring (reconciled_reconcile dial _ hring)

/-! ## Addresses that do not get into each other's way -/

/-- No two of the addresses have the same place on the ring. -/
def Compatible (desired : Std.ExtTreeSet Address) : Prop :=
  ∀ a a' : Address, a ∈ desired → a' ∈ desired → a.ringKey = a'.ringKey → a = a'

/-- Addresses of a list that differ in their ring keys are compatible. -/
theorem compatible_ofList {addresses : List Address}
    (hkeys : ∀ a ∈ addresses, ∀ a' ∈ addresses, a.ringKey = a'.ringKey → a = a') :
    Compatible (.ofList addresses) :=
  fun a a' ha ha' => hkeys a (mem_ofList.mp ha) a' (mem_ofList.mp ha')

end Balancer

end RingRouting
