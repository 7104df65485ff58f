import RingRouting.Channel
import RingRouting.Proofs.Balancer.Requests

/-!
# What a channel's transport keeps

The transport of a channel numbers the handles that it makes one after the other, keeps those that
are not torn down, queues the requests to connect, and shows what was published last. All of this
can be read from the log of a balancer's history. Main statements: `Traced.follow`, that it stays
so, and `Traced.live_iff`, that the handles which the transport keeps are those that the balancer
holds.
-/

namespace RingRouting

/-! ## Numbered handles -/

/-- Handles for some addresses, numbered from `n` on. -/
def numbered : Nat → List Address → List (Connection × Address)
  | _, [] => []
  | n, a :: rest => (⟨n, a⟩, a) :: numbered (n + 1) rest

/-- Handles that are made later are numbered on. -/
theorem numbered_append (n : Nat) (as as' : List Address) :
    numbered n (as ++ as') = numbered n as ++ numbered (n + as.length) as' := by
  induction as generalizing n with
  | nil => rfl
  | cons a rest ih =>
    rw [List.cons_append, numbered, ih, numbered, List.cons_append, List.length_cons, Nat.add_assoc,
      Nat.add_comm 1]

theorem length_numbered (n : Nat) (as : List Address) : (numbered n as).length = as.length := by
  induction as generalizing n with
  | nil => rfl
  | cons a rest ih => rw [numbered, List.length_cons, ih, List.length_cons]

/-- The numbers are consecutive. -/
theorem map_id_numbered (n : Nat) (as : List Address) :
    (numbered n as).map (·.1.id) = List.range' n as.length := by
  induction as generalizing n with
  | nil => rfl
  | cons a rest ih => rw [numbered, List.map_cons, ih, List.length_cons, List.range'_succ]

/-- Each handle is bound to the address it was asked for. -/
theorem address_eq_of_mem_numbered {n : Nat} {as : List Address} {made : Connection × Address}
    (h : made ∈ numbered n as) : made.1.address = made.2 := by
  induction as generalizing n with
  | nil => cases h
  | cons a rest ih =>
    rcases List.mem_cons.mp h with rfl | h
    · rfl
    · exact ih h

/-- A transport that numbers its handles is honest. -/
theorem honest_of_numbered {log : List Action} {as : List Address}
    (h : dialed log = numbered 0 as) :
    Honest log where
  address_eq _ hmade := address_eq_of_mem_numbered (h ▸ hmade)
  nodup := by
    rw [h, map_id_numbered]
    exact List.nodup_range'

/-! ## Logs -/

theorem Orderly.of_prefix {log log' : List Action} (h : Orderly log') (hle : log <+: log') :
    Orderly log :=
  fun before id hbefore => h before id (hbefore.trans hle)

/-- What was torn down was made. -/
theorem Orderly.mem_dialed {log : List Action} (h : Orderly log) {id : Nat}
    (hid : id ∈ tornDown log) :
    id ∈ (dialed log).map (·.1.id) := by
  obtain ⟨action, haction, hclosed⟩ := List.mem_filterMap.mp hid
  obtain ⟨before, after, rfl⟩ := List.append_of_mem haction
  have hmade : id ∈ (dialed before).map (·.1.id) := by
    cases action with
    | closed id' =>
      obtain rfl : id' = id := Option.some.inj hclosed
      exact h before id' ⟨after, by rw [List.append_assoc]; rfl⟩
    | dialed | refused | connect | published | counted => cases hclosed
  rw [dialed_append, List.map_append]
  exact List.mem_append_left _ hmade

/-! ## The transport -/

/-- What actions do to the transport, up to the handles that it keeps and the metrics. -/
theorem exists_foldl_perform_eq (actions : List Action) (ch : Channel) :
    ∃ live metrics, actions.foldl Channel.perform ch =
      { ch with
        nextId := ch.nextId + (dialed actions).length
        queue := ch.queue ++ requested actions
        published := (published actions).getLast?.or ch.published
        live, metrics } := by
  induction actions generalizing ch with
  | nil =>
    refine ⟨ch.live, ch.metrics, ?_⟩
    simp [dialed, requested, published]
  | cons action rest ih =>
    obtain ⟨live, metrics, heq⟩ := ih (ch.perform action)
    refine ⟨live, metrics, ?_⟩
    rw [List.foldl_cons, heq]
    cases action with
    | published state picker =>
      have hlast :
          published (.published state picker :: rest) = (state, picker) :: published rest := rfl
      rw [hlast, List.getLast?_cons]
      cases (published rest).getLast? <;> rfl
    | dialed c a =>
      have hmade : dialed (.dialed c a :: rest) = (c, a) :: dialed rest := rfl
      rw [hmade, List.length_cons, Nat.add_comm _ 1, ← Nat.add_assoc]
      rfl
    | connect id =>
      have hrequested : requested (.connect id :: rest) = [id] ++ requested rest := rfl
      rw [hrequested, ← List.append_assoc]
      rfl
    | refused | closed | counted => rfl

namespace Channel

@[simp] theorem balancer_follow (ch : Channel) (o : Outcome) :
    (ch.follow o).balancer = o.balancer := by
  obtain ⟨live, metrics, heq⟩ :=
    exists_foldl_perform_eq o.actions { ch with balancer := o.balancer }
  rw [follow, heq]

@[simp] theorem policy_follow (ch : Channel) (o : Outcome) : (ch.follow o).policy = ch.policy := by
  obtain ⟨live, metrics, heq⟩ :=
    exists_foldl_perform_eq o.actions { ch with balancer := o.balancer }
  rw [follow, heq]

/-- The handles that are told to connect wait at the end of the queue. -/
@[simp] theorem queue_follow (ch : Channel) (o : Outcome) :
    (ch.follow o).queue = ch.queue ++ requested o.actions := by
  obtain ⟨live, metrics, heq⟩ :=
    exists_foldl_perform_eq o.actions { ch with balancer := o.balancer }
  rw [follow, heq]

/-- The channel keeps what was published last. -/
@[simp] theorem published_follow (ch : Channel) (o : Outcome) :
    (ch.follow o).published = (RingRouting.published o.actions).getLast?.or ch.published := by
  obtain ⟨live, metrics, heq⟩ :=
    exists_foldl_perform_eq o.actions { ch with balancer := o.balancer }
  rw [follow, heq]

end Channel

/-- What the transport keeps is what a log says. -/
structure Recorded (log : List Action) (ch : Channel) : Prop where
  /-- Handles are numbered in the order in which they were made. -/
  exists_numbered : ∃ as, dialed log = numbered 0 as ∧ as.length = ch.nextId
  /-- Those that were not torn down are kept. -/
  getElem?_live : ∀ (id : Nat) c, ch.live[id]? = some c ↔
    c.id = id ∧ (c, c.address) ∈ dialed log ∧ id ∉ tornDown log
  published_eq : ch.published = (published log).getLast?

variable {log : List Action} {ch : Channel}

theorem recorded_new (p : Partitioner) (policy : Policy) : Recorded [] (.new p policy) where
  exists_numbered := ⟨[], rfl, rfl⟩
  getElem?_live id c := by simp [Channel.new, dialed]
  published_eq := rfl

/-- Only lesser numbers were given out. -/
theorem Recorded.lt_nextId (h : Recorded log ch) {id : Nat} (hid : id ∈ (dialed log).map (·.1.id)) :
    id < ch.nextId := by
  obtain ⟨as, hdialed, hlength⟩ := h.exists_numbered
  rw [hdialed, map_id_numbered, List.mem_range'_1] at hid
  omega

/-- A handle that the channel makes is recorded with the next number. -/
theorem Recorded.make (h : Recorded log ch) (horderly : Orderly log) (a : Address) :
    Recorded (log ++ [.dialed ⟨ch.nextId, a⟩ a]) (ch.perform (.dialed ⟨ch.nextId, a⟩ a)) where
  exists_numbered := by
    obtain ⟨as, hdialed, hlength⟩ := h.exists_numbered
    refine ⟨as ++ [a], ?_, by rw [List.length_append, hlength]; rfl⟩
    rw [dialed_append, hdialed, numbered_append, hlength, Nat.zero_add]
    rfl
  getElem?_live id c := by
    have htorn : tornDown [.dialed ⟨ch.nextId, a⟩ a] = [] := rfl
    have hdialed : dialed [.dialed ⟨ch.nextId, a⟩ a] = [(⟨ch.nextId, a⟩, a)] := rfl
    rw [dialed_append, tornDown_append, htorn, List.append_nil, List.mem_append, hdialed,
      List.mem_singleton]
    simp only [Channel.perform, Std.ExtTreeMap.getElem?_insert, Std.LawfulEqOrd.compare_eq_iff_eq]
    split
    next heq =>
      subst heq
      -- the number is a new one
      have hnew : ch.nextId ∉ tornDown log :=
        fun hid => Nat.lt_irrefl _ (h.lt_nextId (horderly.mem_dialed hid))
      constructor
      · intro hc
        cases hc
        exact ⟨rfl, .inr rfl, hnew⟩
      · intro hcase
        obtain ⟨hid, hmade | hmade, -⟩ := hcase
        · have hlt := h.lt_nextId (List.mem_map_of_mem hmade)
          exact absurd hid (Nat.ne_of_lt hlt)
        · rw [(Prod.mk.inj hmade).1]
    next hne =>
      rw [h.getElem?_live]
      constructor
      · intro hcase
        obtain ⟨hid, hmade, htorn⟩ := hcase
        exact ⟨hid, .inl hmade, htorn⟩
      · intro hcase
        obtain ⟨hid, hmade | hmade, htorn⟩ := hcase
        · exact ⟨hid, hmade, htorn⟩
        · rw [(Prod.mk.inj hmade).1] at hid
          exact absurd hid hne
  published_eq := by
    rw [published_append]
    exact h.published_eq.trans (congrArg List.getLast? (List.append_nil _).symm)

/-- A handle that is torn down is kept no longer, as the log says. -/
theorem Recorded.tearDown (h : Recorded log ch) (id : Nat) :
    Recorded (log ++ [.closed id]) (ch.perform (.closed id)) where
  exists_numbered := by
    rw [dialed_append]
    exact (List.append_nil (dialed log)).symm ▸ h.exists_numbered
  getElem?_live id' c := by
    have htorn : tornDown [.closed id] = [id] := rfl
    have hdialed : dialed [.closed id] = [] := rfl
    rw [dialed_append, tornDown_append, htorn, hdialed, List.append_nil, List.mem_append,
      List.mem_singleton]
    simp only [Channel.perform, Std.ExtTreeMap.getElem?_erase, Std.LawfulEqOrd.compare_eq_iff_eq]
    split
    next heq => simp [heq]
    next hne => simp [h.getElem?_live, Ne.symm hne]
  published_eq := by
    rw [published_append]
    exact h.published_eq.trans (congrArg List.getLast? (List.append_nil _).symm)

/-- Other actions make no handle and tear none down. -/
theorem Recorded.pass {action : Action} (h : Recorded log ch) (hdialed : dialed [action] = [])
    (htorn : tornDown [action] = []) : Recorded (log ++ [action]) (ch.perform action) where
  exists_numbered := by
    rw [dialed_append, hdialed, List.append_nil]
    cases action with
    | dialed => cases hdialed
    | refused | connect | closed | published | counted => exact h.exists_numbered
  getElem?_live id c := by
    rw [dialed_append, tornDown_append, hdialed, htorn, List.append_nil, List.append_nil]
    cases action with
    | dialed => cases hdialed
    | closed => cases htorn
    | refused | connect | published | counted => exact h.getElem?_live id c
  published_eq := by
    rw [published_append]
    cases action with
    | published state picker => exact List.getLast?_concat.symm
    | dialed | refused | connect | closed | counted =>
      exact h.published_eq.trans (congrArg List.getLast? (List.append_nil _).symm)

/-- The transport keeps up with a log in which no handle is torn down before it was made, if the
handles are numbered on. -/
theorem Recorded.foldl_perform {actions : List Action} {as : List Address} (h : Recorded log ch)
    (hdialed : dialed actions = numbered ch.nextId as) (horderly : Orderly (log ++ actions)) :
    Recorded (log ++ actions) (actions.foldl Channel.perform ch) := by
  induction actions generalizing log ch as with
  | nil => rwa [List.append_nil]
  | cons action rest ih =>
    have hbefore : Orderly log := horderly.of_prefix (List.prefix_append ..)
    rw [List.append_cons] at horderly ⊢
    cases action with
    | dialed c a =>
      cases as with
      | nil => cases hdialed
      | cons a' as' =>
        obtain ⟨hmade, hrest⟩ := List.cons.inj hdialed
        obtain ⟨rfl, rfl⟩ := Prod.mk.inj hmade
        exact ih (h.make hbefore a) hrest horderly
    | closed id => exact ih (h.tearDown id) hdialed horderly
    | refused | connect | published | counted => exact ih (h.pass rfl rfl) hdialed horderly

/-! ## Histories of the balancer -/

/-- The balancer of a channel is one after a history, and the transport keeps what its log says. -/
structure Traced (p : Partitioner) (callbacks : List Balancer.Callback) (ch : Channel) : Prop
    extends Recorded (Balancer.run p callbacks).actions ch where
  balancer_eq : ch.balancer = (Balancer.run p callbacks).balancer

theorem traced_new (p : Partitioner) (policy : Policy) : Traced p [] (.new p policy) where
  toRecorded := recorded_new p policy
  balancer_eq := rfl

variable {p : Partitioner} {callbacks : List Balancer.Callback}

/-- The channel is an honest transport: it numbers its handles and binds them as asked. -/
theorem Traced.honest (h : Traced p callbacks ch) : Honest (Balancer.run p callbacks).actions := by
  obtain ⟨as, hdialed, -⟩ := h.exists_numbered
  exact honest_of_numbered hdialed

theorem Traced.soundAfter (h : Traced p callbacks ch) :
    ch.balancer.SoundAfter (Balancer.run p callbacks).actions :=
  h.balancer_eq ▸ Balancer.soundAfter_run p callbacks h.honest

theorem Traced.configured (h : Traced p callbacks ch) : ch.balancer.Configured :=
  h.balancer_eq ▸ Balancer.configured_run p callbacks

/-- A callback that numbers its handles on is followed. -/
theorem Traced.follow (h : Traced p callbacks ch) {callback : Balancer.Callback} {as : List Address}
    (hdialed : dialed (ch.balancer.handle callback).actions = numbered ch.nextId as) :
    Traced p (callbacks ++ [callback]) (ch.follow (ch.balancer.handle callback)) := by
  have hrun : Balancer.run p (callbacks ++ [callback]) =
      (ch.balancer.handle callback).after (Balancer.run p callbacks).actions := by
    rw [Balancer.run_concat, h.balancer_eq]
  obtain ⟨before, hbefore, hlength⟩ := h.exists_numbered
  have hall :
      dialed (Balancer.run p (callbacks ++ [callback])).actions = numbered 0 (before ++ as) := by
    rw [hrun, Outcome.actions_after, dialed_append, hbefore, hdialed, numbered_append, hlength,
      Nat.zero_add]
  have horderly := (Balancer.accounted_run p _ (honest_of_numbered hall)).orderly
  rw [hrun, Outcome.actions_after] at horderly
  have hrecorded : Recorded (Balancer.run p callbacks).actions
      { ch with balancer := (ch.balancer.handle callback).balancer } :=
    ⟨h.exists_numbered, h.getElem?_live, h.published_eq⟩
  refine ⟨?_, ?_⟩
  · rw [hrun]
    exact hrecorded.foldl_perform hdialed horderly
  · rw [hrun, Channel.balancer_follow, Outcome.balancer_after]

/-- The transport keeps the handles that the balancer holds. -/
theorem Traced.live_iff (h : Traced p callbacks ch) (id : Nat) (c : Connection) :
    ch.live[id]? = some c ↔ c.id = id ∧ ch.balancer.connections[c.address]? = some c := by
  have haccounted := Balancer.accounted_run p callbacks h.honest
  rw [h.getElem?_live]
  constructor
  · intro hcase
    obtain ⟨rfl, hmade, htorn⟩ := hcase
    refine ⟨rfl, h.soundAfter.getElem?_eq h.honest hmade ?_⟩
    rw [h.balancer_eq]
    rcases haccounted.held_or_torn h.honest (List.mem_map_of_mem hmade) with
      ⟨hheld, -⟩ | ⟨-, hcount⟩
    · exact hheld
    · rw [List.count_eq_zero.mpr htorn] at hcount
      cases hcount
  · intro hcase
    obtain ⟨rfl, hheld⟩ := hcase
    have hmade := h.soundAfter.made c.address c hheld
    refine ⟨rfl, hmade, fun htorn => ?_⟩
    rcases haccounted.held_or_torn h.honest (List.mem_map_of_mem hmade) with ⟨-, hcount⟩ | ⟨hnot, -⟩
    · exact List.count_eq_zero.mp hcount htorn
    · exact hnot (Balancer.mem_held.mpr ⟨c.address, c, h.balancer_eq ▸ hheld, rfl⟩)

/-- What is shown is the balancer as it is. -/
theorem Traced.published_eq_some (h : Traced p callbacks ch) (hsome : ch.published.isSome) :
    ch.published = some (ch.balancer.state, ch.balancer.picker) := by
  obtain ⟨last, hlast⟩ := Option.isSome_iff_exists.mp hsome
  have hagreed := Balancer.agreed_run p callbacks
  rw [hlast, hagreed.last_eq last (h.published_eq.symm.trans hlast), h.balancer_eq]

end RingRouting
