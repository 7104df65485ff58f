import RingRouting.Balancer.Basic
import RingRouting.Proofs.Ring.Placement
import RingRouting.Proofs.TreeMap

/-!
# What the parts of a balancer have to do with each other

A balancer keeps its connections, the states of their handles, the ring and the counts of the states
apart from each other, and changes them one after the other. It is sound if they agree: the ring has
the connections as its members, tracked are only handles of connections, and each count is the
number of handles that are tracked in that state. Main statements: that each change of a balancer
keeps it sound, of which `Sound.release` and `Sound.hold` change connections, `Sound.configure` the
ring and `Sound.track` states.
-/

namespace RingRouting

/-! ## Counts of states -/

namespace Tally

/-- Only the counter of the state that is named changes, and Shutdown has none. -/
theorem count_modify (t : Tally) (f : Nat → Nat) (s s' : Connectivity) :
    (t.modify f s).count s' = if s = s' ∧ s' ≠ .shutdown then f (t.count s') else t.count s' := by
  cases s <;> cases s' <;> rfl

/-- A change of state moves one connection from one count to another, where shut-down connections
are not counted. -/
theorem count_record (t : Tally) (old new s : Connectivity) :
    (t.record old new).count s =
      t.count s - (if old = s then 1 else 0) + if new = s ∧ s ≠ .shutdown then 1 else 0 := by
  rw [record, count_modify, count_modify]
  by_cases hs : s = .shutdown
  · subst hs
    simp [count]
  · by_cases hold : old = s <;> by_cases hnew : new = s <;> simp [hs, hold, hnew]

end Tally

namespace Balancer

/-! ## The ring and the connections -/

/-- Each connection dials the address it is held for. -/
def Bound (connections : Std.ExtTreeMap Address Connection) : Prop :=
  ∀ (a : Address) c, connections[a]? = some c → c.address = a

/-- The members of a ring are the connections, each under the key of the address it is held for. -/
def Mirrors (members : Ring Connection) (connections : Std.ExtTreeMap Address Connection) : Prop :=
  ∀ key c, members.get? key = some c ↔ ∃ a : Address, connections[a]? = some c ∧ a.ringKey = key

section

variable {members members' : Ring Connection} {connections : Std.ExtTreeMap Address Connection}
variable {a a' : Address} {c c' : Connection}

/-- Connections stay bound when one is let go of. -/
theorem Bound.erase (h : Bound connections) (a : Address) : Bound (connections.erase a) := by
  intro a' c' hc
  simp only [Std.ExtTreeMap.getElem?_erase] at hc
  split at hc
  next => cases hc
  next => exact h a' c' hc

theorem Bound.insert (h : Bound connections) (ha : c.address = a) :
    Bound (connections.insert a c) := by
  intro a' c' hc
  simp only [Std.ExtTreeMap.getElem?_insert, Std.LawfulEqOrd.compare_eq_iff_eq] at hc
  split at hc
  next heq => rw [← heq, ← ha, Option.some.inj hc]
  next => exact h a' c' hc

/-- The ring has one place for a key, so no two connections are held for addresses with the same
key. -/
theorem Mirrors.eq_of_ringKey_eq (h : Mirrors members connections) (hbound : Bound connections)
    (ha : connections[a]? = some c) (ha' : connections[a']? = some c')
    (hkey : a.ringKey = a'.ringKey) : a = a' := by
  have hc := (h a.ringKey c).mpr ⟨a, ha, rfl⟩
  rw [(h a.ringKey c').mpr ⟨a', ha', hkey.symm⟩] at hc
  rw [← hbound a c ha, ← hbound a' c' ha', Option.some.inj hc]

/-- A connection that is let go of leaves the ring under its key. -/
theorem Mirrors.erase (h : Mirrors members connections) (hbound : Bound connections)
    (ha : connections[a]? = some c) (hremoved : members.Removed a.ringKey c members') :
    Mirrors members' (connections.erase a) := by
  intro key c'
  -- only the key of `a` is gone from the ring, and no other address has that key
  rw [hremoved.get?_eq]
  simp only [Std.ExtTreeMap.getElem?_erase, Std.LawfulEqOrd.compare_eq_iff_eq]
  constructor
  · intro hc
    split at hc
    next => cases hc
    next hne =>
      obtain ⟨a', ha', rfl⟩ := (h key c').mp hc
      have hne : a ≠ a' := fun heq => hne (congrArg _ heq)
      exact ⟨a', by rw [if_neg hne, ha'], rfl⟩
  · intro hc
    obtain ⟨a', ha', rfl⟩ := hc
    split at ha'
    next => cases ha'
    next hne =>
      rw [if_neg fun hkey => hne (h.eq_of_ringKey_eq hbound ha ha' hkey)]
      exact (h _ c').mpr ⟨a', ha', rfl⟩

/-- A key that is free on the ring is not that of a connection. -/
theorem Mirrors.ringKey_ne (h : Mirrors members connections) (hadded : members.Added c members')
    (ha : c.address = a) (ha' : connections[a']? = some c') : a.ringKey ≠ a'.ringKey := by
  intro hkey
  have hfree : members.get? a.ringKey = none := Ring.get?_eq_none_iff.mpr (ha ▸ hadded.free)
  rw [hkey, (h _ c').mpr ⟨a', ha', rfl⟩] at hfree
  cases hfree

/-- A connection that is held for an address joins the ring under its key. -/
theorem Mirrors.insert (h : Mirrors members connections) (hadded : members.Added c members')
    (ha : c.address = a) : Mirrors members' (connections.insert a c) := by
  intro key c'
  rw [hadded.get?_eq, show Member.key c = a.ringKey from congrArg Address.ringKey ha]
  simp only [Std.ExtTreeMap.getElem?_insert, Std.LawfulEqOrd.compare_eq_iff_eq]
  constructor
  · intro hc
    split at hc
    next hkey => exact ⟨a, by rw [if_pos rfl, hc], hkey⟩
    next hne =>
      obtain ⟨a', ha', rfl⟩ := (h key c').mp hc
      have hne : a ≠ a' := fun heq => hne (congrArg _ heq)
      exact ⟨a', by rw [if_neg hne, ha'], rfl⟩
  · intro hc
    obtain ⟨a', ha', rfl⟩ := hc
    split at ha'
    next heq => rw [if_pos (congrArg _ heq), ha']
    next =>
      rw [if_neg (h.ringKey_ne hadded ha ha')]
      exact (h _ c').mpr ⟨a', ha', rfl⟩

end

/-! ## Sound balancers -/

/-- The ring is the one that the policy and the connections of a balancer make. -/
structure Carries (b : Balancer) (members : Ring Connection) : Prop where
  sound : members.Sound
  partitioner_eq : members.partitioner = b.partitioner
  /-- There are as many virtual nodes per member as the policy says. -/
  factor_eq : b.policy.map (·.factor) = some members.factor
  mirrors : Mirrors members b.connections

theorem Carries.congr {b b' : Balancer} {members : Ring Connection} (h : b.Carries members)
    (hp : b'.partitioner = b.partitioner) (hpolicy : b'.policy = b.policy)
    (hconnections : b'.connections = b.connections) : b'.Carries members where
  sound := h.sound
  partitioner_eq := h.partitioner_eq.trans hp.symm
  factor_eq := hpolicy ▸ h.factor_eq
  mirrors := hconnections ▸ h.mirrors

/-- Tracked is only what is held and not shut down. -/
def Tracked (connections : Std.ExtTreeMap Address Connection)
    (states : Std.ExtTreeMap Nat Connectivity) : Prop :=
  ∀ (id : Nat) s, states[id]? = some s →
    s ≠ .shutdown ∧ ∃ (a : Address) (c : Connection), connections[a]? = some c ∧ c.id = id

/-- The counts are those of the tracked states. -/
def Counts (tally : Tally) (states : Std.ExtTreeMap Nat Connectivity) : Prop :=
  ∀ s, tally.count s = states.values.count s

/-- The parts of a balancer agree. -/
structure Sound (b : Balancer) : Prop where
  /-- Without a ring no connection is held. -/
  connections_eq_empty : b.ring = none → b.connections = ∅
  carries : ∀ members, b.ring = some members → b.Carries members
  bound : Bound b.connections
  tracked : Tracked b.connections b.states
  counts : Counts b.tally b.states

/-- A balancer that holds nothing yet is sound. -/
theorem sound_new (p : Partitioner) : Sound { partitioner := p } where
  connections_eq_empty _ := rfl
  carries := nofun
  bound a c h := by simp at h
  tracked id s h := by simp at h
  counts s := by
    rw [TreeMap.count_values]
    cases s <;> rfl

/-- The parts of a balancer that soundness is about. -/
def holdings (b : Balancer) : Partitioner × Tally × Std.ExtTreeMap Address Connection ×
    Std.ExtTreeMap Nat Connectivity × Option Policy × Option (Ring Connection) :=
  (b.partitioner, b.tally, b.connections, b.states, b.policy, b.ring)

section Holdings

variable {b b' : Balancer} (h : b'.holdings = b.holdings)
include h

theorem partitioner_eq_of_holdings : b'.partitioner = b.partitioner :=
  congrArg (·.1) h

theorem connections_eq_of_holdings : b'.connections = b.connections :=
  congrArg (·.2.2.1) h

theorem states_eq_of_holdings : b'.states = b.states :=
  congrArg (·.2.2.2.1) h

theorem policy_eq_of_holdings : b'.policy = b.policy :=
  congrArg (·.2.2.2.2.1) h

theorem ring_eq_of_holdings : b'.ring = b.ring :=
  congrArg (·.2.2.2.2.2) h

end Holdings

theorem Sound.congr {b b' : Balancer} (hb : b.Sound) (h : b'.holdings = b.holdings) : b'.Sound := by
  simp only [holdings, Prod.mk.injEq] at h
  obtain ⟨hp, htally, hconnections, hstates, hpolicy, hring⟩ := h
  refine ⟨?_, fun members h => ?_, ?_, ?_, ?_⟩
  · rw [hring, hconnections]
    exact hb.connections_eq_empty
  · exact (hb.carries members (hring ▸ h)).congr hp hpolicy hconnections
  · rw [hconnections]
    exact hb.bound
  · rw [hstates, hconnections]
    exact hb.tracked
  · rw [htally, hstates]
    exact hb.counts

/-- Two held addresses with one ring key are the same address. -/
theorem Sound.eq_of_ringKey_eq {b : Balancer} (hb : b.Sound) {a a' : Address}
    (ha : a ∈ b.connections) (ha' : a' ∈ b.connections) (hkey : a.ringKey = a'.ringKey) :
    a = a' := by
  cases hring : b.ring with
  | none => simp [hb.connections_eq_empty hring] at ha
  | some members =>
    exact (hb.carries members hring).mirrors.eq_of_ringKey_eq hb.bound
      (Std.ExtTreeMap.getElem?_eq_some_getElem ha) (Std.ExtTreeMap.getElem?_eq_some_getElem ha')
      hkey

/-! ## Handles and their states -/

section

variable {connections : Std.ExtTreeMap Address Connection}
    {states : Std.ExtTreeMap Nat Connectivity}
variable {tally : Tally} {a : Address} {c : Connection} {id : Nat} {new s : Connectivity}

/-- There is something to count out: a state that is recorded has a count. -/
theorem Counts.pos (h : Counts tally states) (hs : states[id]? = some s) : 0 < tally.count s := by
  have hcount := TreeMap.count_values_erase states id s
  rw [if_pos hs] at hcount
  rw [h]
  omega

/-- Handles that are not tracked are as good as shut down, so that every change goes from the
recorded state to the new one. -/
theorem Counts.record {states' : Std.ExtTreeMap Nat Connectivity} (h : Counts tally states)
    (hcount : ∀ s, states'.values.count s + (if states[id]? = some s then 1 else 0) =
      states.values.count s + if new = s ∧ s ≠ .shutdown then 1 else 0) :
    Counts (tally.record (states[id]?.getD .shutdown) new) states' := by
  intro s
  have hcount := hcount s
  rw [Tally.count_record, h]
  by_cases hs : s = .shutdown
  · -- no count is kept of what is shut down, and nothing is recorded so
    subst hs
    have hzero : states.values.count .shutdown = 0 := (h .shutdown).symm
    simp only [ne_eq, not_true_eq_false, and_false, if_false] at hcount ⊢
    omega
  · have hiff : states[id]?.getD .shutdown = s ↔ states[id]? = some s := by
      cases states[id]? with
      | none => simp [Ne.symm hs]
      | some old => simp
    simp only [hiff]
    by_cases hold : states[id]? = some s
    · -- the count goes down by one, and is not zero before
      have hpos := h.pos hold
      rw [h] at hpos
      rw [if_pos hold] at hcount ⊢
      omega
    · rw [if_neg hold] at hcount ⊢
      omega

/-- The counts stay right when a handle is tracked no longer. -/
theorem Counts.erase (h : Counts tally states) (id : Nat) :
    Counts (tally.record (states[id]?.getD .shutdown) .shutdown) (states.erase id) := by
  refine h.record fun s => ?_
  have hnot : ¬(Connectivity.shutdown = s ∧ s ≠ .shutdown) := fun hs => hs.2 hs.1.symm
  rw [TreeMap.count_values_erase, if_neg hnot, Nat.add_zero]

/-- They stay right when a new state is tracked. -/
theorem Counts.insert (h : Counts tally states) (id : Nat) (hnew : new ≠ .shutdown) :
    Counts (tally.record (states[id]?.getD .shutdown) new) (states.insert id new) := by
  refine h.record fun s => ?_
  have hiff : (new = s ∧ s ≠ .shutdown) ↔ new = s := and_iff_left_of_imp fun hs => hs ▸ hnew
  rw [TreeMap.count_values_insert]
  simp only [hiff]

/-- With a connection its handle goes. -/
theorem Tracked.erase (h : Tracked connections states) (ha : connections[a]? = some c) :
    Tracked (connections.erase a) (states.erase c.id) := by
  intro id s hs
  simp only [Std.ExtTreeMap.getElem?_erase, Std.LawfulEqOrd.compare_eq_iff_eq] at hs ⊢
  split at hs
  next => cases hs
  next hne =>
    obtain ⟨hshutdown, a', c', ha', rfl⟩ := h id s hs
    -- another handle is tracked, so that its connection is another one
    have hne : a ≠ a' := by
      intro heq
      rw [heq, ha'] at ha
      exact hne (by rw [Option.some.inj ha])
    exact ⟨hshutdown, a', c', by rw [if_neg hne, ha'], rfl⟩

/-- With a connection for an address that has none, its handle comes. -/
theorem Tracked.insert (h : Tracked connections states)
    (hfree : ∀ (a' : Address) c', connections[a']? = some c' → a ≠ a') (hnew : new ≠ .shutdown) :
    Tracked (connections.insert a c) (states.insert c.id new) := by
  intro id s hs
  simp only [Std.ExtTreeMap.getElem?_insert, Std.LawfulEqOrd.compare_eq_iff_eq] at hs ⊢
  split at hs
  next heq =>
    cases hs
    exact ⟨hnew, a, c, if_pos rfl, heq⟩
  next =>
    obtain ⟨hshutdown, a', c', ha', hid⟩ := h id s hs
    exact ⟨hshutdown, a', c', by rw [if_neg (hfree a' c' ha'), ha'], hid⟩

/-- A connection may be held on when its handle is no longer tracked. -/
theorem Tracked.forget (h : Tracked connections states) (id : Nat) :
    Tracked connections (states.erase id) := by
  intro id' s hs
  simp only [Std.ExtTreeMap.getElem?_erase] at hs
  split at hs
  next => cases hs
  next => exact h id' s hs

/-- A tracked handle stays tracked when its record changes. -/
theorem Tracked.change (h : Tracked connections states) (hs : states[id]? = some s)
    (hnew : new ≠ .shutdown) : Tracked connections (states.insert id new) := by
  obtain ⟨-, hheld⟩ := h id s hs
  intro id' s' hs'
  simp only [Std.ExtTreeMap.getElem?_insert, Std.LawfulEqOrd.compare_eq_iff_eq] at hs'
  split at hs'
  next heq =>
    cases hs'
    exact ⟨hnew, heq ▸ hheld⟩
  next => exact h id' s' hs'

end

/-! ## A policy -/

/-- The ring may be replaced by one for another policy, if it has the same members. -/
theorem Sound.replace {b : Balancer} (hb : b.Sound) {p : Policy} {members : Ring Connection}
    (hsound : members.Sound) (hp : members.partitioner = b.partitioner)
    (hfactor : members.factor = p.factor) (hmirrors : Mirrors members b.connections) :
    Sound { b with ring := some members, policy := some p } where
  connections_eq_empty h := absurd h (Option.some_ne_none _)
  carries r h := by
    cases h
    exact ⟨hsound, hp, congrArg some hfactor.symm, hmirrors⟩
  bound := hb.bound
  tracked := hb.tracked
  counts := hb.counts

/-- A policy that is put in force rebuilds the ring over the same connections. -/
theorem Sound.configure {b b' : Balancer} (hb : b.Sound) {p : Policy} (h : b.configure p = .ok b') :
    b'.Sound ∧ b'.connections = b.connections := by
  unfold Balancer.configure at h
  cases hring : b.ring with
  | none =>
    simp only [hring] at h
    cases hnew : (Ring.new b.partitioner p.factor : Except RingError (Ring Connection)) with
    | error e =>
      rw [hnew] at h
      cases h
    | ok members =>
      rw [hnew] at h
      cases h
      obtain ⟨h0, rfl⟩ := Ring.exists_of_new_eq_ok hnew
      refine ⟨hb.replace (.new hnew) rfl rfl fun key c => ?_, rfl⟩
      simp [Ring.get?, hb.connections_eq_empty hring]
  | some members =>
    simp only [hring] at h
    obtain ⟨hsound, hp, hfactor, hmirrors⟩ := hb.carries members hring
    by_cases hsame : b.policy.map (·.factor) = some p.factor
    · -- only the spread may be another one
      rw [if_pos hsame] at h
      cases h
      exact ⟨hb.replace hsound hp (Option.some.inj (hfactor.symm.trans hsame)) hmirrors, rfl⟩
    · rw [if_neg hsame] at h
      cases hrebuild : members.rebuild p.factor with
      | error e =>
        rw [hrebuild] at h
        cases h
      | ok members' =>
        rw [hrebuild] at h
        cases h
        obtain ⟨-, hrebuilt⟩ := hsound.rebuilt_of_rebuild hrebuild
        refine ⟨hb.replace hrebuilt.sound (hrebuilt.partitioner_eq.trans hp) hrebuilt.factor_eq
          fun key c => ?_, rfl⟩
        rw [hrebuilt.get?_eq]
        exact hmirrors key c

/-- To adopt a policy, or none, keeps the balancer sound and its connections. -/
theorem Sound.adopt {b b' : Balancer} (hb : b.Sound) {policy : Option Policy}
    (h : b.adopt policy = .ok b') : b'.Sound ∧ b'.connections = b.connections := by
  cases policy with
  | some p => exact hb.configure h
  | none =>
    cases h
    exact ⟨hb, rfl⟩

/-! ## Connections that go -/

/-- The connection of one address is let go of, and no other. -/
theorem getElem?_release (b : Balancer) (a a' : Address) :
    (b.release a).balancer.connections[a']? = if a = a' then none else b.connections[a']? := by
  unfold release
  split
  next hnone =>
    by_cases heq : a = a'
    · rw [if_pos heq, ← heq, hnone]
    · rw [if_neg heq]
  next c hheld => simp [Std.ExtTreeMap.getElem?_erase]

/-- Letting go of a connection keeps the balancer sound. -/
theorem Sound.release {b : Balancer} (hb : b.Sound) (a : Address) :
    (b.release a).balancer.Sound := by
  unfold Balancer.release
  cases hheld : b.connections[a]? with
  | none => exact hb
  | some c =>
    cases hring : b.ring with
    | none => simp [hb.connections_eq_empty hring] at hheld
    | some members =>
      obtain ⟨hsound, hp, hfactor, hmirrors⟩ := hb.carries members hring
      obtain ⟨rest, hremove⟩ := Ring.exists_remove ((hmirrors a.ringKey c).mpr ⟨a, hheld, rfl⟩)
      have hremoved := Ring.removed_of_remove hremove
      refine ⟨?_, ?_, hb.bound.erase a, hb.tracked.erase hheld, ?_⟩
      · intro h
        simp at h
      · intro r h
        obtain rfl : rest = r := by simpa [hremove] using h
        refine ⟨hsound.remove hremoved, hremoved.partitioner_eq.trans hp, ?_,
          hmirrors.erase hb.bound hheld hremoved⟩
        rw [hremoved.factor_eq]
        exact hfactor
      · have hcounts := hb.counts.erase c.id
        dsimp only
        -- a handle that is not tracked counts as shut down, and nothing is to be taken down for it
        revert hcounts
        cases b.states[c.id]? <;> exact id

theorem Sound.releaseAll (as : List Address) {b : Balancer} (hb : b.Sound) :
    (b.releaseAll as).balancer.Sound := by
  induction as generalizing b with
  | nil => exact hb
  | cons a rest ih => exact ih (hb.release a)

/-- What is left is held for none of the addresses. -/
theorem getElem?_releaseAll (as : List Address) (b : Balancer) (a' : Address) :
    (b.releaseAll as).balancer.connections[a']? = if a' ∈ as then none else b.connections[a']? := by
  induction as generalizing b with
  | nil => rw [if_neg List.not_mem_nil, releaseAll]
  | cons a rest ih =>
    refine (ih _).trans ?_
    rw [getElem?_release]
    by_cases hrest : a' ∈ rest
    · rw [if_pos hrest, if_pos (List.mem_cons_of_mem a hrest)]
    · have hiff : a' ∈ a :: rest ↔ a = a' := by simp [hrest, eq_comm]
      simp only [hiff, if_neg hrest]

/-! ## A connection that comes -/

/-- There is no connection yet for an address whose handle the ring takes in. -/
theorem Sound.getElem?_eq_none {b : Balancer} (hb : b.Sound) {members members' : Ring Connection}
    (hring : b.ring = some members) {a : Address} {c : Connection}
    (hadded : members.Added c members') (ha : c.address = a) : b.connections[a]? = none := by
  refine Option.eq_none_iff_forall_ne_some.mpr fun c' hc' => ?_
  exact (hb.carries members hring).mirrors.ringKey_ne hadded ha hc' rfl

/-- A balancer that holds a handle of a new number stays sound. -/
theorem Sound.hold {b : Balancer} (hb : b.Sound) {members members' : Ring Connection}
    (hring : b.ring = some members) {a : Address} {c : Connection}
    (hadded : members.Added c members') (ha : c.address = a)
    (hfresh : ∀ (a' : Address) c', b.connections[a']? = some c' → c'.id ≠ c.id) :
    (b.hold a c members').Sound := by
  obtain ⟨hsound, hp, hfactor, hmirrors⟩ := hb.carries members hring
  have hfree : ∀ (a' : Address) c', b.connections[a']? = some c' → a ≠ a' := by
    rintro a' c' ha' rfl
    rw [hb.getElem?_eq_none hring hadded ha] at ha'
    cases ha'
  have huntracked : b.states[c.id]? = none := by
    refine Option.eq_none_iff_forall_ne_some.mpr fun s hs => ?_
    obtain ⟨-, a', c', ha', hid⟩ := hb.tracked c.id s hs
    exact hfresh a' c' ha' hid
  have hidle : Connectivity.idle ≠ .shutdown := nofun
  refine ⟨nofun, ?_, hb.bound.insert ha, hb.tracked.insert hfree hidle, ?_⟩
  · intro r hr
    cases hr
    refine ⟨hsound.add hadded, hadded.partitioner_eq.trans hp, ?_, hmirrors.insert hadded ha⟩
    rw [hadded.factor_eq]
    exact hfactor
  · have hcounts := hb.counts.insert c.id hidle
    rw [huntracked] at hcounts
    exact hcounts

/-! ## A handle that changes its state -/

/-- A report that counts keeps the balancer sound. -/
theorem Sound.track {b : Balancer} (hb : b.Sound) {id : Nat} {old : Connectivity}
    (hold : b.states[id]? = some old) (new : Connectivity) (cause : Option BalancerError) :
    (b.track id old new cause).Sound := by
  have hrecorded : b.states[id]?.getD .shutdown = old := by rw [hold]; rfl
  have hcarries (members : Ring Connection) (hring : b.ring = some members) :
      (b.track id old new cause).Carries members :=
    (hb.carries members hring).congr rfl rfl rfl
  refine ⟨hb.connections_eq_empty, hcarries, hb.bound, ?_, ?_⟩
  · show Tracked b.connections (if new = .shutdown then
      b.states.erase id else b.states.insert id new)
    split
    next => exact hb.tracked.forget id
    next hnew => exact hb.tracked.change hold hnew
  · show Counts (b.tally.record old new)
      (if new = .shutdown then b.states.erase id else b.states.insert id new)
    rw [← hrecorded]
    split
    next hnew => exact hnew ▸ hb.counts.erase id
    next hnew => exact hb.counts.insert id hnew

/-! ## What does not change the holdings -/

@[simp] theorem holdings_fail (b : Balancer) : b.fail.holdings = b.holdings := rfl

@[simp] theorem holdings_repick (b : Balancer) : b.repick.holdings = b.holdings := by
  unfold repick
  split
  next =>
    split
    next => exact b.holdings_fail
    next => rfl
  next => exact b.holdings_fail

@[simp] theorem holdings_failResolution (b : Balancer) (e : BalancerError) :
    (b.failResolution e).balancer.holdings = b.holdings := by
  unfold failResolution
  by_cases h : b.connections.isEmpty <;> simp only [h] <;> rfl

end Balancer

end RingRouting
