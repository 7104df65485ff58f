import Mathlib.Data.List.Nodup
import RingRouting.Proofs.Registry.Streams

/-!
# Leases and their expiry

Which leases a registry holds is told from its history alone: a node is held as it was registered
last, and as heard of when it was last registered or refreshed, unless it was taken out or expired
since (`Held`). A lease expires in two parts: what is stale is collected, and each lease that was
collected is removed after looking at it again. Other acts may fall between the two; as what they
hear of is not older than the time of the call, a lease that they refresh is not stale when it is
looked at again. Main statement: `expire_exact`.
-/

namespace RingRouting

/-- A watch when nodes are removed: it is told of each one that it selects, as long as it is open
and has room. -/
def Watch.bereave (w : Watch) (nodes : List Node) : Watch :=
  let removals := (nodes.filter w.selection.wants).map Change.removed
  let room := w.mailbox.capacity - w.mailbox.items.length
  if w.mailbox.isOpen then
    { w with mailbox := { w.mailbox with items := w.mailbox.items ++ removals.take room } }
  else w

/-- What a watch is told when nodes are removed, as changes that it hears. -/
theorem Watch.bereave_eq_hear (w : Watch) (nodes : List Node) :
    w.bereave nodes = w.hear ((nodes.filter w.selection.wants).map Change.removed) := by
  rw [bereave, hear]
  cases hopen : w.mailbox.isOpen with
  | true => rw [Mailbox.foldl_send_of_open hopen, if_pos rfl]
  | false =>
    rw [Mailbox.foldl_send_of_closed hopen]
    rfl

/-- Removing nodes one after the other tells of all of them. -/
theorem Watch.bereave_cons (w : Watch) (n : Node) (nodes : List Node) :
    w.bereave (n :: nodes) = (w.bereave [n]).bereave nodes := by
  simp only [Watch.bereave_eq_hear]
  rw [show n :: nodes = [n] ++ nodes from rfl, List.filter_append, List.map_append,
    Watch.hear_append]
  rfl

/-- Telling removals leaves a watch open or closed. -/
@[simp] theorem Watch.isOpen_bereave (w : Watch) (nodes : List Node) :
    (w.bereave nodes).isOpen = w.isOpen := by
  unfold bereave
  dsimp only
  split <;> rfl

namespace Registry

/-! ## Histories -/

/-- The lease that an act registers under an identity. -/
def Act.registers? (id : String) : Act → Option Lease
  | .perform (.register now n) => if n.id = id then some ⟨n, now⟩ else none
  | _ => none

/-- When an act hears of an identity: a node is registered under it, or its lease refreshed. -/
def Act.hears? (id : String) : Act → Option Nat
  | .perform (.register now n) => if n.id = id then some now else none
  | .perform (.keepAlive now id') => if id' = id then some now else none
  | _ => none

/-- An act ends the lease of an identity that was last heard of at that time: its node is taken out,
or it is stale and expires. -/
def Act.ends (id : String) (refreshed : Nat) : Act → Bool
  | .perform (.deregister id') => id' = id
  | .perform (.expire now ttl) => ttl < now - refreshed
  | .sweep now ttl ids _ => ids.contains id && ttl < now - refreshed
  | _ => false

/-- When acts last hear of an identity that was registered before them. -/
def lastHeard (id : String) (registered : Nat) (acts : List Act) : Nat :=
  (acts.filterMap (·.hears? id)).getLast?.getD registered

/-- By this history a node is registered, last heard of at `t`: no other node was registered under
its identity after it, and none of the acts since has ended its lease. -/
def Held (acts : List Act) (n : Node) (t : Nat) : Prop :=
  ∃ before registered after, acts = before ++ .perform (.register registered n) :: after ∧
    (∀ a ∈ after, a.registers? n.id = none) ∧ t = lastHeard n.id registered after ∧
    ∀ earlier a later, after = earlier ++ a :: later →
      a.ends n.id (lastHeard n.id registered earlier) = false

/-- By this history a node is registered, and it was last heard of more than `ttl` before `now`. -/
def Lapsed (acts : List Act) (now ttl : Nat) (n : Node) : Prop :=
  ∃ t, Held acts n t ∧ ttl < now - t

variable {r : Registry} {acts : List Act} {a : Act} {n : Node} {id : String} {t now ttl : Nat}
  {ids : List String}

/-- One more act is heard of, or the last time stays what it was. -/
theorem lastHeard_concat (id : String) (registered : Nat) (acts : List Act) (a : Act) :
    lastHeard id registered (acts ++ [a]) = (a.hears? id).getD (lastHeard id registered acts) := by
  rw [lastHeard, List.filterMap_append]
  cases ha : a.hears? id with
  | none => simp [ha, lastHeard]
  | some t => simp [ha]

/-- At first no node is registered. -/
theorem not_held_nil : ¬ Held [] n t := by
  rintro ⟨before, registered, after, hacts, -⟩
  simp at hacts

/-- What one more act does to what is held: it registers the node, or it leaves its lease and may
refresh it. -/
theorem held_concat : Held (acts ++ [a]) n t ↔ a = .perform (.register t n) ∨
    a.registers? n.id = none ∧
      ∃ t₀, Held acts n t₀ ∧ a.ends n.id t₀ = false ∧ t = (a.hears? n.id).getD t₀ := by
  constructor
  · rintro ⟨before, registered, after, hacts, hlatest, rfl, hkept⟩
    rcases List.eq_nil_or_concat after with rfl | ⟨after, last, rfl⟩
    · obtain ⟨-, hlast⟩ := List.append_inj' hacts rfl
      exact .inl (List.singleton_inj.mp hlast)
    · rw [List.concat_eq_append] at hacts hlatest hkept ⊢
      rw [← List.cons_append, ← List.append_assoc] at hacts
      obtain ⟨rfl, hlast⟩ := List.append_inj' hacts rfl
      obtain rfl := List.singleton_inj.mp hlast
      refine .inr ⟨hlatest a (by simp), lastHeard n.id registered after, ?_, hkept after a [] rfl,
        lastHeard_concat ..⟩
      refine ⟨before, registered, after, rfl, fun a' ha' => hlatest a' (by simp [ha']), rfl, ?_⟩
      rintro earlier a' later rfl
      exact hkept earlier a' (later ++ [a]) (by simp)
  · rintro (rfl | ⟨hother, t₀, ⟨before, registered, after, rfl, hlatest, rfl, hkept⟩, hends, rfl⟩)
    · refine ⟨acts, t, [], rfl, nofun, rfl, fun earlier a' later hnil => ?_⟩
      simp at hnil
    · refine ⟨before, registered, after ++ [a], by simp, ?_, (lastHeard_concat ..).symm, ?_⟩
      · intro a' ha'
        rcases List.mem_append.mp ha' with ha' | ha'
        · exact hlatest a' ha'
        · exact List.mem_singleton.mp ha' ▸ hother
      · intro earlier a' later hafter
        rcases List.eq_nil_or_concat later with rfl | ⟨later, last, rfl⟩
        · obtain ⟨rfl, hlast⟩ := List.append_inj' hafter rfl
          exact List.singleton_inj.mp hlast ▸ hends
        · rw [List.concat_eq_append, ← List.cons_append, ← List.append_assoc] at hafter
          exact hkept earlier a' later (List.append_inj' hafter rfl).1

/-! ## What an act does to a lease -/

/-- Of the leases that are looked at again, those that are stale are gone. -/
theorem getElem?_leases_removeStale (r : Registry) (now ttl : Nat) (ids : List String)
    (id : String) :
    (r.removeStale now ttl ids).2.leases[id]? =
      r.leases[id]?.filter fun lease => !(ids.contains id && lease.isStale now ttl) := by
  induction ids generalizing r with
  | nil => cases hlease : r.leases[id]? <;> simp [removeStale, hlease, Option.filter]
  | cons first rest ih =>
    unfold removeStale
    rw [List.contains_cons]
    cases hlease : r.leases[first]? with
    | none =>
      rw [ih r]
      by_cases hid : id = first
      · rw [hid, hlease, Option.filter_none, Option.filter_none]
      · rw [beq_false_of_ne hid, Bool.false_or]
    | some lease =>
      by_cases hstale : lease.isStale now ttl
      · simp only [hstale, if_true]
        rw [ih (r.forget first lease)]
        simp only [forget, leases_announce, Std.ExtTreeMap.getElem?_erase,
          Std.LawfulEqOrd.compare_eq_iff_eq]
        by_cases hid : id = first
        · simp [hid, hlease, hstale, Option.filter]
        · rw [if_neg (Ne.symm hid), beq_false_of_ne hid, Bool.false_or]
      · dsimp only
        rw [if_neg hstale, ih r]
        by_cases hid : id = first
        · simp [hid, hlease, hstale, Option.filter]
        · rw [beq_false_of_ne hid, Bool.false_or]

/-- Looked at again are the leases that are stale. -/
theorem mem_staleIds_iff : id ∈ r.staleIds now ttl ↔
    ∃ lease, r.leases[id]? = some lease ∧ lease.isStale now ttl = true := by
  simp only [staleIds, List.mem_map, List.mem_filter, Prod.exists]
  constructor
  · rintro ⟨id', lease, ⟨hentry, hstale⟩, rfl⟩
    exact ⟨lease, Std.ExtTreeMap.mem_toList_iff_getElem?_eq_some.mp hentry, hstale⟩
  · rintro ⟨lease, hlease, hstale⟩
    exact ⟨id, lease, ⟨Std.ExtTreeMap.mem_toList_iff_getElem?_eq_some.mpr hlease, hstale⟩, rfl⟩

/-- An act registers a lease, ends it, or leaves it and may refresh it. -/
theorem getElem?_leases_act (r : Registry) (a : Act) (id : String) :
    (r.act a).leases[id]? = (a.registers? id).or
      ((r.leases[id]?.filter fun lease => !a.ends id lease.refreshed).map fun lease =>
        { lease with refreshed := (a.hears? id).getD lease.refreshed }) := by
  have hkeep (leases : Option Lease) : leases =
      (none : Option Lease).or (leases.map fun lease =>
        { lease with refreshed := lease.refreshed }) := by
    cases leases <;> rfl
  have hsame (leases : Option Lease) : leases = (none : Option Lease).or
      ((leases.filter fun _ => !false).map fun lease =>
        { lease with refreshed := lease.refreshed }) := by
    cases leases <;> rfl
  cases a with
  | sweep now ttl ids hids =>
    show (r.removeStale now ttl ids).2.leases[id]? = _
    rw [getElem?_leases_removeStale]
    exact hkeep _
  | perform op =>
    cases op with
    | register now n =>
      show (r.register now n).leases[id]? = _
      rw [leases_register, Std.ExtTreeMap.getElem?_insert]
      simp only [Std.LawfulEqOrd.compare_eq_iff_eq, Act.registers?, Act.hears?]
      split
      next => rfl
      next => exact hsame _
    | keepAlive now id' =>
      simp only [act, perform, keepAlive, Act.registers?, Act.ends, Act.hears?]
      cases hlease : r.leases[id']? with
      | none =>
        by_cases hid : id' = id
        · simp [← hid, hlease, Except.toOption]
        · simpa [hid, Except.toOption] using hsame _
      | some lease =>
        by_cases hid : id' = id
        · simp [← hid, hlease, Except.toOption, Option.filter]
        · simpa [hid, Except.toOption, Std.ExtTreeMap.getElem?_insert] using hsame _
    | deregister id' =>
      simp only [act, perform, Registry.deregister, Act.registers?, Act.ends, Act.hears?]
      cases hlease : r.leases[id']? with
      | none =>
        by_cases hid : id' = id
        · simp [← hid, hlease]
        · simpa [hid] using hsame _
      | some lease =>
        by_cases hid : id' = id
        · simp [← hid, hlease, forget, Option.filter]
        · simpa [hid, forget, Std.ExtTreeMap.getElem?_erase] using hsame _
    | expire now ttl =>
      show (r.removeStale now ttl (r.staleIds now ttl)).2.leases[id]? = _
      rw [getElem?_leases_removeStale]
      cases hlease : r.leases[id]? with
      | none => rfl
      | some lease =>
        -- what is collected are the stale leases, so the list that is gone through does not matter
        have hends :
            (Act.perform (.expire now ttl)).ends id lease.refreshed = lease.isStale now ttl := rfl
        cases hstale : lease.isStale now ttl with
        | true =>
          have hmem : id ∈ r.staleIds now ttl := mem_staleIds_iff.mpr ⟨lease, hlease, hstale⟩
          simp [Act.registers?, hends, hstale, hmem, Option.filter]
        | false => simp [Act.registers?, Act.hears?, hends, hstale, Option.filter]
    | watch s => exact hsame _
    | receive reader | drain reader | unwatch reader =>
      show (r.perform _).leases[id]? = _
      rw [leases_perform_of_reader r rfl]
      exact hsame _

/-- A lease is registered by the registration of its node, at that time. -/
theorem registers?_eq_some_iff {lease : Lease} : a.registers? id = some lease ↔
    a = .perform (.register lease.refreshed lease.node) ∧ lease.node.id = id := by
  constructor
  · intro h
    unfold Act.registers? at h
    split at h
    next now n =>
      split at h
      next hid =>
        obtain rfl := Option.some.inj h
        exact ⟨rfl, hid⟩
      next => cases h
    next => cases h
  · rintro ⟨rfl, hid⟩
    exact if_pos hid

/-- The leases are what the history says. -/
theorem getElem?_leases_after_iff (watchBuffer : Nat) (acts : List Act) (id : String)
    (lease : Lease) :
    ((withWatchBuffer watchBuffer).after acts).leases[id]? = some lease ↔
      lease.node.id = id ∧ Held acts lease.node lease.refreshed := by
  -- the latest act counts, so the induction is on the end of the history
  induction acts using List.reverseRecOn generalizing lease with
  | nil => simp [after, withWatchBuffer, not_held_nil]
  | append_singleton acts a ih =>
    rw [after, List.foldl_append, List.foldl_cons, List.foldl_nil, ← after, getElem?_leases_act,
      held_concat]
    cases hregisters : a.registers? id with
    | some stored =>
      obtain ⟨rfl, hid⟩ := registers?_eq_some_iff.mp hregisters
      rw [Option.some_or, Option.some_inj]
      constructor
      · rintro rfl
        exact ⟨hid, .inl rfl⟩
      · rintro ⟨hid', hcase⟩
        rcases hcase with hact | ⟨hnone, -⟩
        · injection hact with hop
          injection hop with ht hn
          obtain ⟨n, t⟩ := lease
          obtain ⟨n', t'⟩ := stored
          subst ht hn
          rfl
        · rw [hid', hregisters] at hnone
          cases hnone
    | none =>
      rw [Option.none_or, Option.map_eq_some_iff]
      constructor
      · rintro ⟨old, hold, rfl⟩
        obtain ⟨hlease, hends⟩ := Option.filter_eq_some_iff.mp hold
        obtain ⟨rfl, hheld⟩ := (ih old).mp hlease
        exact ⟨rfl, .inr ⟨hregisters, old.refreshed, hheld, by simpa using hends, rfl⟩⟩
      · rintro ⟨rfl, hcase⟩
        rcases hcase with rfl | ⟨-, t₀, hheld, hends, ht⟩
        · exact absurd hregisters (by rw [registers?_eq_some_iff.mpr ⟨rfl, rfl⟩]; simp)
        · refine ⟨⟨lease.node, t₀⟩, ?_, by rw [← ht]⟩
          rw [Option.filter_eq_some_iff, ih]
          exact ⟨⟨rfl, hheld⟩, by simp [hends]⟩

/-! ## Leases between the two parts of an expiry -/

/-- A lease that an act hears of was last heard of then. -/
theorem refreshed_of_hears? {lease : Lease} (hheard : a.hears? id = some t)
    (h : (r.act a).leases[id]? = some lease) : lease.refreshed = t := by
  rw [getElem?_leases_act, hheard] at h
  cases hregisters : a.registers? id with
  | some stored =>
    obtain ⟨rfl, hid⟩ := registers?_eq_some_iff.mp hregisters
    rw [hregisters, Option.some_or, Option.some_inj] at h
    rw [Act.hears?, if_pos hid, Option.some_inj] at hheard
    rw [← h, hheard]
  | none =>
    rw [hregisters, Option.none_or, Option.map_eq_some_iff] at h
    obtain ⟨old, -, rfl⟩ := h
    rfl

/-- A lease that an act does not hear of is the one that was there before. -/
theorem getElem?_leases_of_act {lease : Lease} (hheard : a.hears? id = none)
    (h : (r.act a).leases[id]? = some lease) : r.leases[id]? = some lease := by
  rw [getElem?_leases_act, hheard] at h
  cases hregisters : a.registers? id with
  | some stored =>
    obtain ⟨rfl, hid⟩ := registers?_eq_some_iff.mp hregisters
    rw [Act.hears?, if_pos hid] at hheard
    cases hheard
  | none =>
    rw [hregisters, Option.none_or, Option.map_eq_some_iff] at h
    obtain ⟨old, hold, rfl⟩ := h
    exact (Option.filter_eq_some_iff.mp hold).1

/-- What is heard of from some time on is not older than that: a lease that is older was there
before, and none of the acts heard of it. -/
theorem getElem?_leases_of_after {lease : Lease}
    (htimes : ∀ a ∈ acts, ∀ t, a.hears? id = some t → now ≤ t) (hold : lease.refreshed < now)
    (h : (r.after acts).leases[id]? = some lease) :
    r.leases[id]? = some lease ∧ ∀ a ∈ acts, a.hears? id = none := by
  induction acts generalizing r with
  | nil => exact ⟨h, nofun⟩
  | cons a rest ih =>
    obtain ⟨hact, hrest⟩ := ih (fun a' ha' => htimes a' (List.mem_cons_of_mem a ha')) h
    cases hheard : a.hears? id with
    | none =>
      refine ⟨getElem?_leases_of_act hheard hact, fun a' ha' => ?_⟩
      rcases List.mem_cons.mp ha' with rfl | ha'
      · exact hheard
      · exact hrest a' ha'
    | some t =>
      have ht := htimes a List.mem_cons_self t hheard
      rw [refreshed_of_hears? hheard hact] at hold
      omega

/-! ## Removal -/

/-- A node that is removed is told to the open watches that select it, and those that are closed are
let go of. -/
theorem watches_forget (r : Registry) (id : String) (lease : Lease) :
    (r.forget id lease).watches =
      (r.watches.filter (·.2.isOpen)).map fun w => (w.1, w.2.bereave [lease.node]) := by
  simp only [forget, announce, prune, mapWatches, Watch.bereave_eq_hear]
  refine List.map_congr_left fun w _ => ?_
  by_cases hwants : w.2.selection.wants lease.node
  · simp [Watch.tell, Watch.hear, hwants]
  · simp [Watch.tell, Watch.hear, hwants]

/-- Each open watch is told of the nodes that expire, and once there are any, no closed one is
left. -/
theorem watches_removeStale (r : Registry) (now ttl : Nat) (ids : List String) :
    let nodes := (r.removeStale now ttl ids).1
    (r.removeStale now ttl ids).2.watches =
      (r.watches.filter fun w => nodes.isEmpty || w.2.isOpen).map fun w =>
        (w.1, w.2.bereave nodes) := by
  induction ids generalizing r with
  | nil =>
    simp [removeStale, Watch.bereave_eq_hear, Watch.hear]
  | cons id rest ih =>
    unfold removeStale
    cases hlease : r.leases[id]? with
    | none => exact ih r
    | some lease =>
      dsimp only
      split
      next =>
        dsimp only
        rw [ih (r.forget id lease), watches_forget]
        generalize ((r.forget id lease).removeStale now ttl rest).1 = nodes
        -- the ones that are still there are open, so nothing more is let go of
        have hopen (w : Nat × Watch) :
            ((nodes.isEmpty || w.2.isOpen) && w.2.isOpen) = w.2.isOpen := by
          cases w.2.isOpen <;> simp
        rw [List.filter_map, List.map_map, List.filter_filter]
        simp [Function.comp_def, Watch.bereave_cons _ lease.node nodes, hopen]
      next => exact ih r

theorem watchBuffer_removeStale (r : Registry) (now ttl : Nat) (ids : List String) :
    (r.removeStale now ttl ids).2.watchBuffer = r.watchBuffer := by
  induction ids generalizing r with
  | nil => rfl
  | cons id rest ih =>
    unfold removeStale
    cases r.leases[id]? with
    | none => exact ih r
    | some lease =>
      dsimp only
      split
      next => exact ih (r.forget id lease)
      next => exact ih r

/-- Some nodes expire, each once. Their leases are gone and the others are as they were; each watch
is told of those of them that it selects, and nothing else happens, but that closed watches are let
go of when something is told. -/
structure Expires (lapsed : Node → Prop) (r : Registry) (nodes : List Node)
    (r' : Registry) : Prop where
  mem_iff : ∀ n, n ∈ nodes ↔ lapsed n
  nodup : (nodes.map (·.id)).Nodup
  leases : ∀ (id : String) lease,
    r'.leases[id]? = some lease ↔ r.leases[id]? = some lease ∧ lease.node ∉ nodes
  watches_eq : r'.watches = (r.watches.filter fun w => nodes.isEmpty || w.2.isOpen).map fun w =>
    (w.1, w.2.bereave nodes)
  watchBuffer_eq : r'.watchBuffer = r.watchBuffer

/-- Removed are the nodes of those identities whose leases are too old. -/
theorem Keyed.mem_fst_removeStale_iff (hr : r.Keyed) (hids : ids.Nodup) :
    n ∈ (r.removeStale now ttl ids).1 ↔
      n.id ∈ ids ∧ ∃ t, r.leases[n.id]? = some ⟨n, t⟩ ∧ ttl < now - t := by
  rw [r.fst_removeStale now ttl hids, List.mem_filterMap]
  constructor
  · rintro ⟨id, hid, hn⟩
    obtain ⟨lease, hlease, rfl⟩ := Option.map_eq_some_iff.mp hn
    obtain ⟨hlease, hstale⟩ := Option.filter_eq_some_iff.mp hlease
    obtain rfl := hr id lease hlease
    exact ⟨hid, lease.refreshed, hlease, of_decide_eq_true hstale⟩
  · rintro ⟨hid, t, hlease, hstale⟩
    have hlapsed : (Lease.mk n t).isStale now ttl = true := decide_eq_true hstale
    refine ⟨n.id, hid, ?_⟩
    rw [hlease, Option.filter_some, if_pos hlapsed]
    rfl

/-- No node is removed twice. -/
theorem Keyed.nodup_fst_removeStale (hr : r.Keyed) (hids : ids.Nodup) :
    ((r.removeStale now ttl ids).1.map (·.id)).Nodup := by
  rw [r.fst_removeStale now ttl hids, List.map_filterMap]
  refine List.Nodup.filterMap (fun id id' other hid hid' => ?_) hids
  have hkey (id : String) (hid : other ∈ Option.map (·.id)
      ((r.leases[id]?.filter (·.isStale now ttl)).map (·.node))) : other = id := by
    obtain ⟨n, hn, rfl⟩ := Option.map_eq_some_iff.mp hid
    obtain ⟨lease, hlease, rfl⟩ := Option.map_eq_some_iff.mp hn
    exact hr id lease (Option.filter_eq_some_iff.mp hlease).1
  exact (hkey id hid).symm.trans (hkey id' hid')

/-- Those nodes expire, and nothing else does. -/
theorem Keyed.expires_removeStale (hr : r.Keyed) (hids : ids.Nodup) :
    Expires (fun n => n.id ∈ ids ∧ ∃ t, r.leases[n.id]? = some ⟨n, t⟩ ∧ ttl < now - t) r
      (r.removeStale now ttl ids).1 (r.removeStale now ttl ids).2 where
  mem_iff _ := hr.mem_fst_removeStale_iff hids
  nodup := hr.nodup_fst_removeStale hids
  leases id lease := by
    rw [getElem?_leases_removeStale, Option.filter_eq_some_iff]
    refine and_congr_right fun hlease => ?_
    obtain rfl := hr id lease hlease
    have hmem : lease.node ∈ (r.removeStale now ttl ids).1 ↔
        lease.node.id ∈ ids ∧ lease.isStale now ttl = true := by
      rw [hr.mem_fst_removeStale_iff hids, hlease]
      refine and_congr_right fun _ => ⟨?_, fun hstale => ⟨_, rfl, of_decide_eq_true hstale⟩⟩
      rintro ⟨t, ht, hstale⟩
      rw [Option.some.inj ht]
      exact decide_eq_true hstale
    rw [hmem]
    simp [imp_iff_not_or]
  watches_eq := r.watches_removeStale now ttl ids
  watchBuffer_eq := r.watchBuffer_removeStale now ttl ids

/-- It matters only which nodes lapsed, not how that is said. -/
theorem Expires.congr {lapsed lapsed' : Node → Prop} {r' : Registry} {nodes : List Node}
    (h : Expires lapsed r nodes r') (hlapsed : ∀ n, lapsed n ↔ lapsed' n) :
    Expires lapsed' r nodes r' :=
  ⟨fun n => (h.mem_iff n).trans (hlapsed n), h.nodup, h.leases, h.watches_eq, h.watchBuffer_eq⟩

/-- Where each identity with a stale lease is given, the nodes that expire are told from the
history. -/
theorem expires_of_forall_mem {watchBuffer : Nat} (hids : ids.Nodup)
    (hall : ∀ (id : String) lease,
      ((withWatchBuffer watchBuffer).after acts).leases[id]? = some lease →
      lease.isStale now ttl = true → id ∈ ids) :
    let r := (withWatchBuffer watchBuffer).after acts
    Expires (Lapsed acts now ttl) r (r.removeStale now ttl ids).1
      (r.removeStale now ttl ids).2 := by
  intro r
  have hr : r.Keyed := (keyed_withWatchBuffer watchBuffer).after acts
  refine (hr.expires_removeStale hids).congr fun n => ?_
  constructor
  · rintro ⟨-, t, hlease, hstale⟩
    exact ⟨t, ((getElem?_leases_after_iff watchBuffer acts n.id _).mp hlease).2, hstale⟩
  · rintro ⟨t, hheld, hstale⟩
    have hlease : r.leases[n.id]? = some ⟨n, t⟩ :=
      (getElem?_leases_after_iff watchBuffer acts n.id ⟨n, t⟩).mpr ⟨rfl, hheld⟩
    exact ⟨hall n.id _ hlease (decide_eq_true hstale), t, hlease, hstale⟩

/-- A lease that is there is refreshed. -/
theorem keepAlive_eq_ok {lease : Lease} (h : r.leases[id]? = some lease) (now : Nat) :
    r.keepAlive now id =
      .ok { r with leases := r.leases.insert id { lease with refreshed := now } } := by
  rw [keepAlive, h]

/-- An identity without a lease is not known. -/
theorem keepAlive_eq_error (h : r.leases[id]? = none) (now : Nat) :
    r.keepAlive now id = .error (.nodeUnknown id) := by
  rw [keepAlive, h]

/-- After any history the leases are those that it says are held. A call to expire removes the nodes
that were last heard of more than `ttl` before, as they were registered last, and tells the watches
of each once; the other leases stay as they are. That is so too when other acts fall between
collecting the stale leases, in any order, and removing them; what they hear of stays. Refreshing a
lease only sets its time, and is refused for an identity that is not held. -/
theorem expire_exact (watchBuffer : Nat) (acts : List Act) :
    let r := (withWatchBuffer watchBuffer).after acts
    (∀ (id : String) lease, r.leases[id]? = some lease ↔
      lease.node.id = id ∧ Held acts lease.node lease.refreshed) ∧
    (∀ now ttl, Expires (Lapsed acts now ttl) r (r.expire now ttl).1 (r.expire now ttl).2) ∧
    (∀ now ttl ids between, ids.Perm (r.staleIds now ttl) →
      (∀ a ∈ between, ∀ id t, a.hears? id = some t → now ≤ t) →
      let r₁ := r.after between
      let nodes := (r₁.removeStale now ttl ids).1
      let r₂ := (r₁.removeStale now ttl ids).2
      Expires (Lapsed (acts ++ between) now ttl) r₁ nodes r₂ ∧
      ∀ a ∈ between, ∀ id, (a.hears? id).isSome →
        r₂.leases[id]? = r₁.leases[id]? ∧ ∀ n ∈ nodes, n.id ≠ id) ∧
    (∀ n t, Held acts n t → ∀ now,
      r.keepAlive now n.id = .ok { r with leases := r.leases.insert n.id ⟨n, now⟩ }) ∧
    ∀ id, (∀ n t, Held acts n t → n.id ≠ id) → ∀ now,
      r.keepAlive now id = .error (.nodeUnknown id) ∧ r.perform (.keepAlive now id) = r := by
  intro r
  have hleases := getElem?_leases_after_iff watchBuffer acts
  refine ⟨hleases, fun now ttl => ?_, fun now ttl ids between hids htimes => ?_,
    fun n t hheld now => ?_,
    fun id hnone now => ?_⟩
  · exact expires_of_forall_mem (r.nodup_staleIds now ttl) fun id lease hlease hstale =>
      mem_staleIds_iff.mpr ⟨lease, hlease, hstale⟩
  · have hafter : r.after between = (withWatchBuffer watchBuffer).after (acts ++ between) :=
      List.foldl_append.symm
    have hnodup : ids.Nodup := hids.nodup_iff.mpr (r.nodup_staleIds now ttl)
    -- a lease that is stale in the end was stale when the leases were collected, and no act heard
    -- of it since
    have hstale (id : String) (lease : Lease) (hlease : (r.after between).leases[id]? = some lease)
        (hold : lease.isStale now ttl = true) :
        r.leases[id]? = some lease ∧ ∀ a ∈ between, a.hears? id = none := by
      have hlt : ttl < now - lease.refreshed := of_decide_eq_true hold
      exact getElem?_leases_of_after (fun a ha t => htimes a ha id t) (by omega) hlease
    have hexpires : Expires (Lapsed (acts ++ between) now ttl) (r.after between)
        ((r.after between).removeStale now ttl ids).1
        ((r.after between).removeStale now ttl ids).2 := by
      rw [hafter] at hstale ⊢
      refine expires_of_forall_mem hnodup fun id lease hlease hold => ?_
      exact hids.mem_iff.mpr (mem_staleIds_iff.mpr ⟨lease, (hstale id lease hlease hold).1, hold⟩)
    refine ⟨hexpires, fun a ha id hheard => ?_⟩
    have hfresh (lease : Lease) (hlease : (r.after between).leases[id]? = some lease) :
        lease.isStale now ttl = false := by
      refine Bool.not_eq_true _ ▸ fun hold => ?_
      rw [(hstale id lease hlease hold).2 a ha] at hheard
      cases hheard
    have hkeyed : (r.after between).Keyed := hafter ▸ (keyed_withWatchBuffer watchBuffer).after _
    constructor
    · rw [getElem?_leases_removeStale]
      cases hlease : (r.after between).leases[id]? with
      | none => rfl
      | some lease => simp [hfresh lease hlease, Option.filter]
    · rintro n hn rfl
      obtain ⟨-, t, hlease, hold⟩ := (hkeyed.mem_fst_removeStale_iff hnodup).mp hn
      have hfalse := hfresh _ hlease
      rw [Lease.isStale, decide_eq_false_iff_not] at hfalse
      exact hfalse hold
  · exact keepAlive_eq_ok ((hleases n.id ⟨n, t⟩).mpr ⟨rfl, hheld⟩) now
  · have hlease : r.leases[id]? = none := by
      refine Option.eq_none_iff_forall_ne_some.mpr fun lease hlease => ?_
      obtain ⟨hid, hheld⟩ := (hleases id lease).mp hlease
      exact hnone _ _ hheld hid
    have herror := keepAlive_eq_error hlease now
    exact ⟨herror, by rw [perform, herror]; rfl⟩

/-- Three leases are collected as stale. Before they are removed, one is refreshed and one
registered anew; the third expires, and the watch that selects it is told. -/
theorem expire_interrupted :
    let node (id service : String) : Node :=
      { id, service, protocol := .grpc, host := "h", port := 1 }
    let acts : List Act :=
      [.perform (.register 0 (node "a" "s")), .perform (.register 1 (node "b" "s")),
        .perform (.watch ⟨"s", .grpc, []⟩), .perform (.register 1 (node "c" "s")),
        .perform (.keepAlive 4 "b"),
        .perform (.drain 0)]
    let between : List Act := [.perform (.keepAlive 10 "a"), .perform (.register 11 (node "c" "t"))]
    let r := (withWatchBuffer 2).after acts
    let r₁ := r.after between
    let removed := r₁.removeStale 10 5 ["c", "b", "a"]
    r.staleIds 10 5 = ["a", "b", "c"] ∧ removed.1 = [node "b" "s"] ∧
      removed.2.waiting 0 = [.removed (node "c" "s"), .removed (node "b" "s")] ∧
      removed.2.leases["a"]?.map (·.refreshed) = some 10 ∧
      removed.2.leases["c"]?.map (·.refreshed) = some 11 ∧
      (removed.2.keepAlive 12 "b").toOption.isNone := by
  intro node acts between r r₁ removed
  have htimes : ∀ a ∈ between, ∀ id t, a.hears? id = some t → 10 ≤ t := by
    intro a ha id t hheard
    rcases List.mem_pair.mp ha with rfl | rfl
    · simp only [Act.hears?] at hheard
      grind
    · simp only [Act.hears?] at hheard
      grind
  obtain ⟨-, -, hremoval, -⟩ := expire_exact 2 acts
  obtain ⟨hexpires, hheard⟩ := hremoval 10 5 ["c", "b", "a"] between (by decide) htimes
  have hnodes : removed.1 = [node "b" "s"] := by decide
  refine ⟨by decide, hnodes, by decide, ?_, ?_, by decide⟩
  · rw [(hheard _ List.mem_cons_self "a" (by decide)).1]
    decide
  · rw [(hheard _ (List.mem_cons_of_mem _ List.mem_cons_self) "c" (by decide)).1]
    decide

end Registry

end RingRouting
