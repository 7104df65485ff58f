import RingRouting.Proofs.Balancer.Aggregate
import RingRouting.Proofs.Balancer.Requests

/-!
# What an update changes

An update lets go of the connections that are not desired and asks for handles where a connection is
missing. What it lets go of is off the ring before anything is asked for, so that the ring refuses a
handle only if another desired address has its place, held from before or granted earlier in the
update. This ends the update: what was granted until then stays, and nothing else is asked for. Main
statements: `SoundAfter.ends_update`, that an update ends in one of these two ways, and for
histories `run_update_turns_over` and `run_update_conflict`.
-/

namespace RingRouting.Balancer

/-- The requests for handles that an update makes unless it is ended, with the answers of the
transport: for each desired address that no connection is held for, in the order of addresses. -/
def requests (b : Balancer) (dial : Nat → Address → Option Connection) (addresses : List Address) :
    List (Address × Option Connection) :=
  answers dial 0 (b.missing (.ofList addresses))

/-- An address finds its place on the ring taken: a connection that is held for a desired address
has it, or a handle that was granted before. -/
def Occupied (b : Balancer) (addresses : List Address) (before : List (Address × Option Connection))
    (a : Address) : Prop :=
  ∃ a' : Address, a'.ringKey = a.ringKey ∧
    ((a' ∈ addresses ∧ a' ∈ b.connections) ∨ ∃ c, (a', some c) ∈ before)

/-- Each handle that is granted finds its place free. -/
def Unhindered (b : Balancer) (addresses : List Address)
    (requests : List (Address × Option Connection)) : Prop :=
  ∀ before a c after, requests = before ++ (a, some c) :: after → ¬b.Occupied addresses before a

/-- The handle for `a` is the first one that is granted and finds its place taken; `front` is what
was asked for before. -/
structure Conflict (b : Balancer) (addresses : List Address)
    (requests front : List (Address × Option Connection))
    (a : Address) (c : Connection) : Prop where
  split : ∃ back, requests = front ++ (a, some c) :: back
  occupied : b.Occupied addresses front a
  unhindered : b.Unhindered addresses front

/-- All that becomes of connections and handles in an update: those that are not desired are let go
of, and the handles that were granted for the requests are held. The handles in `vain` are made and
torn down. -/
structure Turnover (b : Balancer) (addresses : List Address) (policy : Option Policy)
    (requests : List (Address × Option Connection)) (vain : List Connection)
    (o : Outcome) : Prop where
  /-- What is asked for is desired and was not held. -/
  mem_addresses : ∀ request ∈ requests, request.1 ∈ addresses ∧ request.1 ∉ b.connections
  /-- Held are, with the handles that they had, the connections for desired addresses, and the new
  ones. -/
  getElem?_connections : ∀ (a : Address) c, o.balancer.connections[a]? = some c ↔
    (a ∈ addresses ∧ b.connections[a]? = some c) ∨ (a, some c) ∈ requests
  /-- What is recorded of a handle that stays is what was recorded of it, and it is not told to
  connect. -/
  states_kept : ∀ a ∈ addresses, ∀ c, b.connections[a]? = some c →
    o.balancer.states[c.id]? = b.states[c.id]? ∧ c.id ∉ requested o.actions
  /-- A new handle is idle. -/
  states_new : ∀ a c, (a, some c) ∈ requests → o.balancer.states[c.id]? = some .idle
  /-- The handles that were granted are told to connect, each of them once, and no others. -/
  requested_eq : requested o.actions = (handles requests).map (·.id)
  nodup_requested : (requested o.actions).Nodup
  /-- The transport is asked for nothing else. -/
  dialed_eq : (dialed o.actions).map (·.1) = handles requests ++ vain
  /-- Torn down, each of them once, are the handles of connections that are not desired, and those
  in vain. -/
  nodup_tornDown : (tornDown o.actions).Nodup
  mem_tornDown_iff : ∀ id, id ∈ tornDown o.actions ↔
    (∃ (a : Address) (c : Connection), b.connections[a]? = some c ∧ a ∉ addresses ∧ c.id = id) ∨
      ∃ c ∈ vain, c.id = id
  /-- In force is the policy that came with the resolution, or else the one from before. -/
  policy_eq : o.balancer.policy = (policy.map (·.withDefaults)).or b.policy
  /-- The ring has just the connections that are held, under that policy. -/
  carries : ∃ members, o.balancer.ring = some members ∧ o.balancer.Carries members

/-- How an update ends where there is a ring. -/
inductive Ends (b : Balancer) (dial : Nat → Address → Option Connection) (addresses : List Address)
    (policy : Option Policy) (o : Outcome) : Prop
  /-- All requests were answered, and the ring took in all handles. -/
  | complete (hunhindered : b.Unhindered addresses (b.requests dial addresses))
      (hturnover : b.Turnover addresses policy (b.requests dial addresses) [] o)
      (herror : o.error = if addresses = [] then some .badResolverState else none)
  /-- The ring did not take in a handle. -/
  | conflict {front : List (Address × Option Connection)} {a : Address} {c : Connection}
      (hconflict : b.Conflict addresses (b.requests dial addresses) front a c)
      (hturnover : b.Turnover addresses policy front [c] o)
      (herror : o.error = some (.ring (.memberExists a.ringKey)))
      (hpicker : o.balancer.picker = .failing (.ring (.memberExists a.ringKey)))

variable {b b' : Balancer} {dial : Nat → Address → Option Connection} {log : List Action}
variable {desired : Std.ExtTreeSet Address} {addresses : List Address} {policy : Option Policy}
variable {requests front : List (Address × Option Connection)} {vain : List Connection}
variable {a : Address} {c : Connection} {o : Outcome}

/-! ## Handles that are granted -/

/-- Requests make the handles that are granted, in their order. -/
theorem map_id_dialed_flatMap (requests : List (Address × Option Connection)) :
    (dialed (requests.flatMap requestActions)).map (·.1) = handles requests := by
  rw [dialed_flatMap, List.map_filterMap, handles]
  refine List.filterMap_congr fun request _ => ?_
  cases request.2 <;> rfl

/-- The handles that are made have numbers of their own, which nothing that is held has. -/
theorem SoundAfter.fresh (hb : b.SoundAfter log) {actions : List Action}
    (hhonest : Honest (log ++ actions)) :
    ((dialed actions).map (·.1.id)).Nodup ∧
      ∀ (a : Address) c, b.connections[a]? = some c → c.id ∉ (dialed actions).map (·.1.id) := by
  have hnodup := hhonest.nodup
  rw [dialed_append, List.map_append, List.nodup_append] at hnodup
  obtain ⟨-, hnew, hdisjoint⟩ := hnodup
  exact ⟨hnew, fun a c hc hmade => hdisjoint _ (List.mem_map_of_mem (hb.made a c hc)) _ hmade rfl⟩

/-- What is honest was honest before the last of its actions. -/
theorem honest_of_append {log front middle back : List Action}
    (h : Honest (log ++ (front ++ (middle ++ back)))) : Honest (log ++ (front ++ middle)) := by
  rw [← List.append_assoc front, ← List.append_assoc log] at h
  exact h.of_prefix (List.prefix_append ..)

/-- The ring is still there after requests. -/
theorem Dials.isSome_ring (h : Dials b requests b') (hring : b.ring.isSome) : b'.ring.isSome := by
  induction h with
  | nil => exact hring
  | refuse _ ih => exact ih hring
  | hold _ _ _ ih => exact ih rfl

/-- Of requests that the ring took in, each granted one was taken in where those before it had led
to. -/
theorem Dials.exists_of_split {before after : List (Address × Option Connection)}
    (h : Dials b (before ++ (a, some c) :: after) b') :
    ∃ b₁ members members', Dials b before b₁ ∧ b₁.ring = some members ∧
      members.add c = .ok members' := by
  induction before generalizing b with
  | nil =>
    cases h with
    | hold hring hadd => exact ⟨b, _, _, .nil b, hring, hadd⟩
  | cons request before ih =>
    cases h with
    | refuse hrest =>
      obtain ⟨b₁, members, members', hdials, hring, hadd⟩ := ih hrest
      exact ⟨b₁, members, members', hdials.refuse, hring, hadd⟩
    | hold hring hadd hrest =>
      obtain ⟨b₁, members₁, members', hdials, hring₁, hadd₁⟩ := ih hrest
      exact ⟨b₁, members₁, members', hdials.hold hring hadd, hring₁, hadd₁⟩

/-- What requests after a release lead to is sound. -/
theorem SoundAfter.dials (hb : b.SoundAfter log) (h : Dials (b.retained desired) requests b')
    (hhonest :
      Honest (log ++ ((b.releaseAll (b.stale desired)).actions ++
      requests.flatMap requestActions))) :
    b'.Sound :=
  (hb.steps ((b.steps_releaseAll (b.stale desired)).trans h.steps) hhonest).sound

/-- The place of an address is taken on the ring just if another address is found to have it. -/
theorem Dials.contains_iff_occupied (h : Dials (b.retained (.ofList addresses)) requests b')
    (hle : requests.map (·.1) <+: (b.retained (.ofList addresses)).missing (.ofList addresses))
    (hb' : b'.Sound) {members : Ring Connection} (hring : b'.ring = some members) (a : Address) :
    members.contains a.ringKey ↔ b.Occupied addresses requests a := by
  have hmirrors := (hb'.carries members hring).mirrors a.ringKey
  rw [Ring.contains_eq_isSome, Option.isSome_iff_exists]
  constructor
  · intro hc
    obtain ⟨c, hc⟩ := hc
    obtain ⟨a', ha', hkey⟩ := (hmirrors c).mp hc
    refine ⟨a', hkey, ?_⟩
    rcases (h.getElem?_of_requests hle a' c).mp ha' with hnew | ⟨hdesired, hold⟩
    · exact .inr ⟨c, hnew⟩
    · exact .inl ⟨mem_ofList.mp hdesired,
        Std.ExtTreeMap.mem_iff_isSome_getElem?.mpr (by rw [hold]; rfl)⟩
  · intro ho
    obtain ⟨a', hkey, ⟨hdesired, hheld⟩ | ⟨c, hnew⟩⟩ := ho
    · have hold := Std.ExtTreeMap.getElem?_eq_some_getElem hheld
      exact ⟨_, (hmirrors _).mpr
        ⟨a', (h.getElem?_of_requests hle a' _).mpr (.inr ⟨mem_ofList.mpr hdesired, hold⟩), hkey⟩⟩
    · exact ⟨c, (hmirrors c).mpr ⟨a', (h.getElem?_of_requests hle a' c).mpr (.inl hnew), hkey⟩⟩

/-- Where the ring took in all handles, each of them found its place free. -/
theorem SoundAfter.unhindered (hb : b.SoundAfter log)
    (h : Dials (b.retained (.ofList addresses)) requests b')
    (hle : requests.map (·.1) <+: (b.retained (.ofList addresses)).missing (.ofList addresses))
    (hhonest : Honest (log ++ ((b.releaseAll (b.stale (.ofList addresses))).actions ++
      requests.flatMap requestActions))) : b.Unhindered addresses requests := by
  intro before a c after hsplit hoccupied
  subst hsplit
  obtain ⟨b₁, members, members', hdials, hring, hadd⟩ := h.exists_of_split
  rw [List.map_append] at hle
  have hle₁ := (List.prefix_append _ _).trans hle
  have ha : c.address = a := hhonest.address_eq (c, a) (by simp [dialed, requestActions])
  rw [List.flatMap_append] at hhonest
  have hsound := hb.dials hdials (honest_of_append hhonest)
  have hfree := (Ring.added_of_add hadd).free
  rw [show Member.key c = a.ringKey from congrArg Address.ringKey ha] at hfree
  have htaken := (hdials.contains_iff_occupied hle₁ hsound hring a).mpr hoccupied
  rw [hfree] at htaken
  cases htaken

/-! ## Connections and handles -/

/-- An update lets go of what is not desired and has the ring take in the handles for some requests,
which leads to `b'`. What it does then leaves the holdings alone, and makes and tears down the
handles in `vain`. -/
structure Exchange (b : Balancer) (addresses : List Address)
    (requests : List (Address × Option Connection))
    (b' : Balancer) (rest : List Action) (vain : List Connection) (o : Outcome) : Prop where
  dials : Dials (b.retained (.ofList addresses)) requests b'
  le_missing : requests.map (·.1) <+: (b.retained (.ofList addresses)).missing (.ofList addresses)
  actions_eq : o.actions = (b.releaseAll (b.stale (.ofList addresses))).actions ++
    (requests.flatMap requestActions ++ rest)
  dialed_rest : (dialed rest).map (·.1) = vain
  requested_rest : requested rest = []
  tornDown_rest : tornDown rest = vain.map (·.id)
  holdings_eq : o.balancer.holdings = b'.holdings

section Exchange

variable {rest : List Action} (h : b.Exchange addresses requests b' rest vain o)
include h

/-- An update makes the handles that it was granted and those in vain. -/
theorem Exchange.dialed_eq : (dialed o.actions).map (·.1) = handles requests ++ vain := by
  rw [h.actions_eq, dialed_append, dialed_append, (quiet_releaseAll _ _).1, List.nil_append,
    List.map_append, map_id_dialed_flatMap, h.dialed_rest]

theorem Exchange.map_id_dialed_eq :
    (dialed o.actions).map (·.1.id) = (handles requests).map (·.id) ++ vain.map (·.id) := by
  rw [← List.map_append, ← h.dialed_eq, List.map_map]
  rfl

/-- Told to connect are the handles that were granted, and none in vain. -/
theorem Exchange.requested_eq : requested o.actions = (handles requests).map (·.id) := by
  rw [h.actions_eq, requested_append, requested_append, (quiet_releaseAll _ _).2, List.nil_append,
    requested_flatMap, h.requested_rest, List.append_nil]

/-- Torn down are the handles of stale connections and those in vain. -/
theorem Exchange.tornDown_eq : tornDown o.actions =
    ((b.stale (.ofList addresses)).filterMap fun a => b.connections[a]?.map (·.id)) ++
      vain.map (·.id) := by
  rw [h.actions_eq, tornDown_append, tornDown_append, tornDown_releaseAll (nodup_stale ..),
    tornDown_flatMap, List.nil_append, h.tornDown_rest]

/-- A handle is torn down if its address is not desired, or if it was made in vain. -/
theorem Exchange.mem_tornDown_iff {id : Nat} : id ∈ tornDown o.actions ↔
    (∃ (a : Address) (c : Connection), b.connections[a]? = some c ∧ a ∉ addresses ∧ c.id = id) ∨
      ∃ c ∈ vain, c.id = id := by
  rw [h.tornDown_eq, List.mem_append, List.mem_map, List.mem_filterMap]
  refine or_congr_left ⟨fun hcase => ?_, fun hcase => ?_⟩
  · obtain ⟨a, hstale, ha⟩ := hcase
    obtain ⟨c, hc, hid⟩ := Option.map_eq_some_iff.mp ha
    exact ⟨a, c, hc, fun hdesired => (mem_stale.mp hstale).2 (mem_ofList.mpr hdesired), hid⟩
  · obtain ⟨a, c, hc, hdesired, hid⟩ := hcase
    have hheld : a ∈ b.connections := Std.ExtTreeMap.mem_iff_isSome_getElem?.mpr (by rw [hc]; rfl)
    exact ⟨a, mem_stale.mpr ⟨hheld, fun hmem => hdesired (mem_ofList.mp hmem)⟩,
      by rw [hc, ← hid]; rfl⟩

theorem Exchange.policy_eq : o.balancer.policy = b.policy := by
  obtain ⟨_, _, _, _, heq⟩ := h.dials.exists_retained_eq
  rw [policy_eq_of_holdings h.holdings_eq, heq]

/-- A handle that stays is known as before, if no new one has its number. -/
theorem Exchange.states_kept (hdistinct : Distinct b.connections) (ha : a ∈ addresses)
    (hc : b.connections[a]? = some c) (hold : c.id ∉ (handles requests).map (·.id)) :
    o.balancer.states[c.id]? = b.states[c.id]? := by
  have hretained : (b.retained (.ofList addresses)).connections[a]? = some c := by
    rw [getElem?_retained, if_pos (mem_ofList.mpr ha), hc]
  rw [states_eq_of_holdings h.holdings_eq, h.dials.getElem?_states, if_neg hold, retained,
    hdistinct.states_releaseAll _ hretained]

/-- A new handle is idle. -/
theorem Exchange.states_new (hc : (a, some c) ∈ requests) :
    o.balancer.states[c.id]? = some .idle := by
  rw [states_eq_of_holdings h.holdings_eq, h.dials.getElem?_states,
    if_pos (List.mem_map_of_mem (mem_handles.mpr ⟨a, hc⟩))]

/-- The ring after an exchange is the one of the connections that are held then. -/
theorem Exchange.exists_carries (hb : b.SoundAfter log) (hring : b.ring.isSome)
    (hhonest : Honest (log ++ o.actions)) :
    ∃ members, o.balancer.ring = some members ∧ o.balancer.Carries members := by
  rw [h.actions_eq] at hhonest
  have hsound : b'.Sound := hb.dials h.dials (honest_of_append hhonest)
  obtain ⟨members, hmembers⟩ :=
    Option.isSome_iff_exists.mp (h.dials.isSome_ring ((b.isSome_ring_retained _).trans hring))
  have hring' : o.balancer.ring = some members := (ring_eq_of_holdings h.holdings_eq).trans hmembers
  exact ⟨members, hring', (hsound.congr h.holdings_eq).carries members hring'⟩

/-- What becomes of connections and handles then. -/
theorem SoundAfter.turnover (hb : b.SoundAfter log) (hring : b.ring.isSome)
    (hhonest : Honest (log ++ o.actions)) : b.Turnover addresses none requests vain o := by
  -- no handle that is made has the number of another one
  obtain ⟨hnew, hfresh⟩ := hb.fresh hhonest
  rw [h.map_id_dialed_eq] at hnew hfresh
  obtain ⟨hnodup, hnodupVain, -⟩ := List.nodup_append.mp hnew
  have hold (a : Address) (c : Connection) (hc : b.connections[a]? = some c) :
      c.id ∉ (handles requests).map (·.id) := fun hid => hfresh a c hc (List.mem_append_left _ hid)
  have hdistinct : Distinct b.connections := hb.distinct (hhonest.of_prefix (List.prefix_append ..))
  refine
    { mem_addresses := fun request hrequest => ?_
      getElem?_connections := fun a c => ?_
      states_kept := fun a ha c hc => ⟨h.states_kept hdistinct ha hc (hold a c hc), ?_⟩
      states_new := fun a c hc => h.states_new hc
      requested_eq := h.requested_eq
      nodup_requested := h.requested_eq ▸ hnodup
      dialed_eq := h.dialed_eq
      nodup_tornDown := ?_
      mem_tornDown_iff := fun id => h.mem_tornDown_iff
      policy_eq := h.policy_eq
      carries := h.exists_carries hb hring hhonest }
  · have hmissing := h.le_missing.subset (List.mem_map_of_mem (f := (·.1)) hrequest)
    rw [missing_retained, mem_missing, mem_ofList] at hmissing
    exact hmissing
  · rw [connections_eq_of_holdings h.holdings_eq, h.dials.getElem?_of_requests h.le_missing,
      mem_ofList, or_comm]
  · rw [h.requested_eq]
    exact hold a c hc
  · rw [h.tornDown_eq, List.nodup_append]
    refine ⟨(nodup_stale ..).filterMap fun a a' id ha ha' => ?_, hnodupVain,
      fun id hid id' hid' => ?_⟩
    · obtain ⟨c, hc, rfl⟩ := Option.map_eq_some_iff.mp ha
      obtain ⟨c', hc', hid⟩ := Option.map_eq_some_iff.mp ha'
      exact hdistinct a a' c c' hc hc' hid.symm
    · obtain ⟨a, -, ha⟩ := List.mem_filterMap.mp hid
      obtain ⟨c, hc, rfl⟩ := Option.map_eq_some_iff.mp ha
      exact fun heq => hfresh a c hc (List.mem_append_right _ (heq ▸ hid'))

end Exchange

/-! ## How an update ends -/

/-- An update whose policy is in force ends complete or with a conflict. -/
theorem SoundAfter.ends_reconcile (hb : b.SoundAfter log) (hring : b.ring.isSome)
    (h : Reconciled dial b (.ofList addresses) o) (hhonest : Honest (log ++ o.actions)) :
    b.Ends dial addresses none o := by
  cases h with
  | @settle b' settled hdials hsettled =>
    have hle : (answers dial 0
        ((b.retained (.ofList addresses)).missing (.ofList addresses))).map (·.1) <+:
          (b.retained (.ofList addresses)).missing (.ofList addresses) :=
      ⟨[], by rw [List.append_nil, map_fst_answers]⟩
    have hquiet := settled.quiet_conclude (.ofList addresses : Std.ExtTreeSet Address).isEmpty
    have hexchange : b.Exchange addresses _ b' _ [] ((settled.conclude _).after _) :=
      ⟨hdials, hle, List.append_assoc .., by rw [hquiet.1]; rfl, hquiet.2,
        settled.tornDown_conclude _, holdings_settled _ hsettled⟩
    have hturnover := hb.turnover hexchange hring hhonest
    rw [hexchange.actions_eq] at hhonest
    have hunhindered := hb.unhindered hdials hle (honest_of_append hhonest)
    rw [missing_retained] at hunhindered hturnover ⊢
    refine .complete hunhindered hturnover ?_
    rw [Outcome.error_after, conclude]
    by_cases hempty : addresses = []
    · rw [if_pos hempty, if_pos (isEmpty_ofList.mpr hempty)]
    · rw [if_neg hempty, if_neg fun h => hempty (isEmpty_ofList.mp h)]
  | @reject b' front rest a c members e hmissing hdials hdial hmembers hadd =>
    have hle : (answers dial 0 front).map (·.1) <+:
        (b.retained (.ofList addresses)).missing (.ofList addresses) := by
      rw [map_fst_answers, hmissing]
      exact List.prefix_append ..
    have hbefore := honest_of_append hhonest
    have ha : c.address = a := hhonest.address_eq (c, a) (by simp [dialed])
    have hkey : Member.key c = a.ringKey := congrArg Address.ringKey ha
    obtain ⟨htaken, rfl⟩ := Ring.add_eq_error_iff.mp hadd
    rw [hkey] at htaken hhonest ⊢
    refine .conflict ⟨?_, ?_, hb.unhindered hdials hle hbefore⟩
      (hb.turnover ⟨hdials, hle, rfl, rfl, rfl, rfl, rfl⟩ hring hhonest) rfl rfl
    · refine ⟨answers dial (0 + (handles (answers dial 0 front)).length + 1) rest, ?_⟩
      rw [Balancer.requests, ← missing_retained, hmissing, answers_append, answers, hdial]
    · exact (hdials.contains_iff_occupied hle (hb.dials hdials hbefore) hmembers a).mp htaken

/-- How an update ends depends on the connections and their handles, whatever the policy before
was. -/
theorem Turnover.of_adopt
    (hadopt : ({ b with resolverError := none } : Balancer).adopt policy = .ok b')
    (h : b'.Turnover addresses none requests vain o) :
    b.Turnover addresses policy requests vain o := by
  have hpolicy := policy_adopt hadopt
  obtain ⟨policy', ring, rfl⟩ := exists_adopt_eq hadopt
  exact { h with policy_eq := h.policy_eq.trans hpolicy }

theorem Ends.of_adopt (hadopt : ({ b with resolverError := none } : Balancer).adopt policy = .ok b')
    (h : b'.Ends dial addresses none o) : b.Ends dial addresses policy o := by
  cases h with
  | complete hunhindered hturnover herror =>
    have hadopted := hturnover.of_adopt hadopt
    obtain ⟨policy', ring, rfl⟩ := exists_adopt_eq hadopt
    exact .complete hunhindered hadopted herror
  | conflict hconflict hturnover herror hpicker =>
    have hadopted := hturnover.of_adopt hadopt
    obtain ⟨policy', ring, rfl⟩ := exists_adopt_eq hadopt
    exact .conflict ⟨hconflict.split, hconflict.occupied, hconflict.unhindered⟩ hadopted herror
      hpicker

/-- Where there is a ring, or a policy to make one, every update ends complete or with a conflict.
-/
theorem SoundAfter.ends_update (hb : b.SoundAfter log) (hconfigured : b.Configured)
    (hring : b.ring.isSome ∨ policy.isSome)
    (hhonest : Honest (log ++ (b.update dial addresses policy).actions)) :
    b.Ends dial addresses policy (b.update dial addresses policy) := by
  have hupdated := hconfigured.updated_update dial addresses policy
  generalize b.update dial addresses policy = o at hupdated hhonest ⊢
  cases hupdated with
  | @noRing b' hadopt hnone =>
    -- a ring that is there stays, and a policy brings one
    exfalso
    cases policy with
    | none =>
      cases hadopt
      have hnone : b.ring = none := hnone
      simp [hnone] at hring
    | some p =>
      obtain ⟨members, rfl⟩ := exists_configure_eq hadopt
      cases hnone
  | @reconcile b' _ hadopt hsome h =>
    have hadopted : b'.SoundAfter log := by
      have hcleared : ({ b with resolverError := none } : Balancer).SoundAfter log := hb.congr rfl
      obtain ⟨hsound, hconnections⟩ := hcleared.sound.adopt hadopt
      exact hcleared.of_sound hsound fun a c hc => hconnections ▸ hc
    exact (hadopted.ends_reconcile hsome h hhonest).of_adopt hadopt

/-! ## Conflicts -/

/-- Where every handle finds its place free there is no conflict. -/
theorem Unhindered.not_conflict (h : b.Unhindered addresses requests) :
    ¬b.Conflict addresses requests front a c := by
  intro hconflict
  obtain ⟨back, hsplit⟩ := hconflict.split
  exact h front a c back hsplit hconflict.occupied

/-- There is one conflict at most, as it is the first. -/
theorem Conflict.eq {front' : List (Address × Option Connection)} {a' : Address} {c' : Connection}
    (h : b.Conflict addresses requests front a c)
    (h' : b.Conflict addresses requests front' a' c') :
    front = front' ∧ a = a' ∧ c = c' := by
  obtain ⟨back, hsplit⟩ := h.split
  obtain ⟨back', hsplit'⟩ := h'.split
  rcases List.append_eq_append_iff.mp (hsplit.symm.trans hsplit') with
    ⟨between, rfl, heq⟩ | ⟨between, rfl, heq⟩
  · cases between with
    | nil =>
      cases heq
      exact ⟨(List.append_nil _).symm, rfl, rfl⟩
    | cons request between =>
      obtain ⟨rfl, -⟩ := List.cons.inj heq
      exact absurd h.occupied (h'.unhindered front a c between rfl)
  · cases between with
    | nil =>
      cases heq
      exact ⟨List.append_nil _, rfl, rfl⟩
    | cons request between =>
      obtain ⟨rfl, -⟩ := List.cons.inj heq
      exact absurd h'.occupied (h.unhindered front' a' c' between rfl)

/-- Asked for are the missing addresses, in their order. -/
theorem map_fst_requests (b : Balancer) (dial : Nat → Address → Option Connection)
    (addresses : List Address) :
    (b.requests dial addresses).map (·.1) = b.missing (.ofList addresses) :=
  map_fst_answers ..

/-- Asked for is what is desired and not held. -/
theorem mem_map_fst_requests {b : Balancer} {dial : Nat → Address → Option Connection}
    {addresses : List Address} {a : Address} :
    a ∈ (b.requests dial addresses).map (·.1) ↔ a ∈ addresses ∧ a ∉ b.connections := by
  rw [map_fst_requests, mem_missing, mem_ofList]

/-- The transport is asked in the order of addresses. -/
theorem pairwise_requests (b : Balancer) (dial : Nat → Address → Option Connection)
    (addresses : List Address) :
    ((b.requests dial addresses).map (·.1)).Pairwise fun a a' => compare a a' = .lt := by
  rw [map_fst_requests]
  exact Std.ExtTreeSet.ordered_toList.filter _

/-- Addresses with places of their own are not in each other's way. -/
theorem Compatible.unhindered (h : Compatible (.ofList addresses)) (b : Balancer)
    (dial : Nat → Address → Option Connection) :
    b.Unhindered addresses (b.requests dial addresses) := by
  intro before a c after hsplit hoccupied
  have hmem {request : Address × Option Connection}
      (hrequest : request ∈ before ++ (a, some c) :: after) :
      request.1 ∈ addresses ∧ request.1 ∉ b.connections :=
    mem_map_fst_requests.mp (List.mem_map_of_mem (hsplit ▸ hrequest))
  obtain ⟨hdesired, hfree⟩ := hmem (List.mem_append_right before (List.mem_cons_self ..))
  obtain ⟨a', hkey, ⟨hdesired', hheld⟩ | ⟨c', hnew⟩⟩ := hoccupied
  · exact hfree (h a' a (mem_ofList.mpr hdesired') (mem_ofList.mpr hdesired) hkey ▸ hheld)
  · -- each address is asked for once
    have hdesired' := (hmem (List.mem_append_left _ hnew)).1
    obtain rfl := h a' a (mem_ofList.mpr hdesired') (mem_ofList.mpr hdesired) hkey
    have hnodup := nodup_missing b (.ofList addresses)
    rw [← map_fst_requests b dial, hsplit, List.map_append, List.nodup_append] at hnodup
    exact hnodup.2.2 _ (List.mem_map_of_mem hnew) _ (List.mem_cons_self ..) rfl

/-- The ring takes in all handles for such addresses. -/
theorem Ends.complete_of_compatible (h : b.Ends dial addresses policy o)
    (hcompatible : Compatible (.ofList addresses)) :
    o.error = (if addresses = [] then some .badResolverState else none) ∧
      b.Turnover addresses policy (b.requests dial addresses) [] o := by
  cases h with
  | complete _ hturnover herror => exact ⟨herror, hturnover⟩
  | conflict hconflict => exact absurd hconflict (hcompatible.unhindered b dial).not_conflict

/-! ## Histories -/

/-- What an update changes whose addresses have places of their own on the ring, whatever was held
there before: nothing is in the way, and it does all that was asked of it and nothing else. -/
theorem run_update_turns_over (p : Partitioner) (callbacks : List Callback)
    (dial : Nat → Address → Option Connection) (addresses : List Address) (policy : Option Policy)
    (hhonest : Honest (run p (callbacks ++ [.update dial addresses policy])).actions)
    (hring : (run p callbacks).balancer.ring.isSome ∨ policy.isSome)
    (hkeys : ∀ a ∈ addresses, ∀ a' ∈ addresses, a.ringKey = a'.ringKey → a = a') :
    let b := (run p callbacks).balancer
    let o := b.update dial addresses policy
    let requests := b.requests dial addresses
    o.error = (if addresses = [] then some .badResolverState else none) ∧
      (∀ a, a ∈ requests.map (·.1) ↔ a ∈ addresses ∧ a ∉ b.connections) ∧
      b.Turnover addresses policy requests [] o := by
  intro b o requests
  rw [run_concat] at hhonest
  have hb := soundAfter_run p callbacks (hhonest.of_prefix (List.prefix_append ..))
  have hends := hb.ends_update (configured_run p callbacks) hring hhonest
  obtain ⟨herror, hturnover⟩ := hends.complete_of_compatible (compatible_ofList hkeys)
  exact ⟨herror, fun a => mem_map_fst_requests, hturnover⟩

/-- Two nodes change addresses with each other, after an update was rejected in which one of them
came twice. Of two nodes that come besides the transport refuses one, and a node that is ready
stays. -/
theorem run_swapped_turns_over :
    let node (addr : String) (id : String) : Address := ⟨addr, "", some id⟩
    let callbacks : List Callback :=
      [.update (fun made a => some ⟨made, a⟩) [node "h:0" "k", node "h:1" "m", node "h:2" "n"]
        (some ⟨2, 1⟩),
        .report 0 .ready none,
        .update (fun _ a => some ⟨3, a⟩)
          [node "h:0" "k", node "h:1" "m", node "h:2" "n", node "h:3" "n"] none]
    let addresses :=
      [node "h:2" "m", node "h:1" "n", node "h:0" "k", node "h:5" "l", node "h:4" "j"]
    let dial (made : Nat) (a : Address) : Option Connection :=
      if a = node "h:4" "j" then none else some ⟨4 + made, a⟩
    let b := (run Ring.crowded callbacks).balancer
    let o := b.update dial addresses none
    o.error = none ∧ requested o.actions = [4, 5, 6] ∧ tornDown o.actions = [1, 2] ∧
      o.balancer.connections[node "h:2" "m"]? = some ⟨5, node "h:2" "m"⟩ ∧
      o.balancer.connections[node "h:4" "j"]? = none ∧ o.balancer.states[0]? = some .ready := by
  intro node callbacks addresses dial b o
  obtain ⟨herror, -, hturnover⟩ := run_update_turns_over Ring.crowded callbacks dial addresses none
    ⟨by decide, by decide⟩ (.inl (by decide)) (by decide)
  refine ⟨herror, hturnover.requested_eq.trans (by decide), by decide, ?_, by decide, ?_⟩
  · exact (hturnover.getElem?_connections _ _).mpr (.inr (by decide))
  · exact (hturnover.states_kept (node "h:0" "k") (by decide) ⟨0, node "h:0" "k"⟩
      (by decide)).1.trans (by decide)

/-- When an update ends with an error of the ring, and what it then has changed. -/
theorem run_update_conflict (p : Partitioner) (callbacks : List Callback)
    (dial : Nat → Address → Option Connection) (addresses : List Address) (policy : Option Policy)
    (hhonest : Honest (run p (callbacks ++ [.update dial addresses policy])).actions)
    (hring : (run p callbacks).balancer.ring.isSome ∨ policy.isSome) :
    let b := (run p callbacks).balancer
    let o := b.update dial addresses policy
    let requests := b.requests dial addresses
    (∀ a, a ∈ requests.map (·.1) ↔ a ∈ addresses ∧ a ∉ b.connections) ∧
      (requests.map (·.1)).Pairwise (fun a a' => compare a a' = .lt) ∧
      (∀ e, o.error = some (.ring e) ↔
        ∃ front a c, b.Conflict addresses requests front a c ∧ e = .memberExists a.ringKey) ∧
      ∀ front a c, b.Conflict addresses requests front a c →
        b.Turnover addresses policy front [c] o ∧
        ∃ state picker, published o.actions = [(state, picker)] ∧
          ∀ key chance m, (picker.pick key chance m).1 =
            .error (.ring (.memberExists a.ringKey)) := by
  intro b o requests
  rw [run_concat] at hhonest
  have hb := soundAfter_run p callbacks (hhonest.of_prefix (List.prefix_append ..))
  have hends := hb.ends_update (configured_run p callbacks) hring hhonest
  refine ⟨fun a => mem_map_fst_requests, pairwise_requests b dial addresses, fun e => ?_,
    fun front a c hconflict => ?_⟩
  · cases hends with
    | complete hunhindered _ herror =>
      refine iff_of_false (fun h => ?_) fun ⟨front, a, c, hconflict, _⟩ =>
        hunhindered.not_conflict hconflict
      rw [show o.error = _ from herror] at h
      split at h <;> cases h
    | @conflict front a c hconflict _ herror =>
      rw [show o.error = _ from herror]
      constructor
      · intro h
        cases h
        exact ⟨front, a, c, hconflict, rfl⟩
      · intro ⟨_, _, _, hconflict', he⟩
        obtain ⟨-, rfl, -⟩ := hconflict.eq hconflict'
        rw [he]
  · cases hends with
    | complete hunhindered => exact absurd hconflict hunhindered.not_conflict
    | conflict hconflict' hturnover _ hpicker =>
      obtain ⟨rfl, rfl, rfl⟩ := hconflict'.eq hconflict
      have hpublished :=
        ((configured_run p callbacks).announces_update dial addresses policy).published_eq
      refine ⟨hturnover, _, _, hpublished, fun key chance m => ?_⟩
      rw [hpicker]
      rfl

/-- A node has moved, and another one comes twice. The ring takes in the handle for where the first
one is now and one for the second, and not the next one for that, so that nothing is asked for the
last address. -/
theorem run_twice_conflict :
    let node (addr : String) (id : String) : Address := ⟨addr, "", some id⟩
    let callbacks : List Callback :=
      [.update (fun _ a => some ⟨0, a⟩) [node "h:0" "m"] (some ⟨2, 1⟩)]
    let addresses := [node "h:1" "m", node "h:2" "n", node "h:3" "n", node "h:4" "k"]
    let dial (made : Nat) (a : Address) : Option Connection := some ⟨1 + made, a⟩
    let b := (run Ring.crowded callbacks).balancer
    let o := b.update dial addresses none
    o.error = some (.ring (.memberExists "n")) ∧ requested o.actions = [1, 2] ∧
    tornDown o.actions = [0, 3] ∧
      ∃ state picker, published o.actions = [(state, picker)] ∧
        ∀ key chance m, (picker.pick key chance m).1 = .error (.ring (.memberExists "n")) := by
  intro node callbacks addresses dial b o
  obtain ⟨-, -, herror, hconflict⟩ := run_update_conflict Ring.crowded callbacks dial addresses none
    ⟨by decide, by decide⟩ (.inl (by decide))
  have hn : o.error = some (.ring (.memberExists "n")) := by decide
  obtain ⟨front, a, c, h, hkey⟩ := (herror _).mp hn
  refine ⟨hn, by decide, by decide, ?_⟩
  rw [hkey]
  exact (hconflict front a c h).2

end RingRouting.Balancer
