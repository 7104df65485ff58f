import RingRouting.Mailbox
import RingRouting.Node.Basic
import Std.Data.ExtTreeMap

/-!
# Registries

A registry keeps the nodes of all services. Every node holds a lease, which its owner refreshes; a
lease that was not refreshed for too long expires. Whoever wants to follow a selection of nodes
opens a watch, and is told of every change to that selection as long as its mailbox has room. The
time is a number of ticks that the caller passes in.

A watch that its reader closed stays with the registry until the next announcement, whatever that is
about. As watches are known by numbers of their own, those that stay are not disturbed by it
(`watch?_prune`).
-/

namespace RingRouting

/-- Why a registry refuses an operation. -/
inductive RegistryError where
  | nodeUnknown (id : String)
deriving DecidableEq, Repr

/-- The text of a registry error. -/
def RegistryError.message : RegistryError → String
  | .nodeUnknown id => s!"node not registered: {id}"

/-- A registered node and the time at which it was last heard of. -/
structure Lease where
  node : Node
  refreshed : Nat
deriving Repr

/-- The lease is older than `ttl`. A lease of exactly that age is not. -/
def Lease.isStale (l : Lease) (now ttl : Nat) : Bool :=
  ttl < now - l.refreshed

/-- Someone who follows a selection of nodes. -/
structure Watch where
  selection : Selection
  mailbox : Mailbox Change
deriving Repr

/-- The reader of the watch is still there. -/
def Watch.isOpen (w : Watch) : Bool :=
  w.mailbox.isOpen

/-- Tell a watch a change, if the change concerns what it selects. -/
def Watch.tell (concerns : Selection → Bool) (change : Change) (w : Watch) : Watch :=
  if concerns w.selection then { w with mailbox := w.mailbox.send change } else w

/-- Telling a watch something leaves it open or closed. -/
@[simp] theorem Watch.isOpen_tell (w : Watch) (concerns : Selection → Bool) (change : Change) :
    (w.tell concerns change).isOpen = w.isOpen := by
  unfold Watch.tell Watch.isOpen Mailbox.send
  split
  next => split <;> rfl
  next => rfl

/-- Without watches no number was given. -/
theorem numbered_nil : (([] : List (Nat × Watch)).map (·.1)).Sublist (List.range 0) :=
  List.nil_sublist _

/-- Nodes under lease, and those who follow them. -/
structure Registry where
  leases : Std.ExtTreeMap String Lease := ∅
  /-- The watches under their numbers, in the order in which they were opened. -/
  watches : List (Nat × Watch) := []
  /-- How many watches were opened so far. The next one gets this number. -/
  opened : Nat := 0
  /-- No number was given twice. -/
  numbered : (watches.map (·.1)).Sublist (List.range opened) := by exact numbered_nil
  /-- How many changes each watch holds before new ones are lost. -/
  watchBuffer : Nat := 64

namespace Registry

/-- A registry without nodes whose watches hold `watchBuffer` changes, at least one. -/
def withWatchBuffer (watchBuffer : Nat) : Registry :=
  { watchBuffer := max 1 watchBuffer }

/-- Let go of the watches that are closed. -/
def prune (r : Registry) : Registry :=
  { r with
    watches := r.watches.filter (·.2.isOpen)
    numbered := (List.filter_sublist.map _).trans r.numbered }

/-- Change watches, each under its number. -/
def mapWatches (r : Registry) (f : Nat → Watch → Watch) : Registry :=
  { r with
    watches := r.watches.map fun w => (w.1, f w.1 w.2)
    numbered := by simpa [Function.comp_def] using r.numbered }

/-- Tell a change to every watch with a selection that it concerns. Closed ones are let go of
first. -/
def announce (r : Registry) (concerns : Selection → Bool) (change : Change) : Registry :=
  r.prune.mapWatches fun _ => Watch.tell concerns change

/-- Register a node, or replace what was registered under its identity. For a selection that the old
node was in and the new one is not, that is a removal of the old node. -/
def register (r : Registry) (now : Nat) (n : Node) : Registry :=
  let stored := { r with leases := r.leases.insert n.id ⟨n, now⟩ }
  let moved := match r.leases[n.id]? with
    | some previous =>
      stored.announce (fun s => s.wants previous.node && !s.wants n) (.removed previous.node)
    | none => stored
  moved.announce (·.wants n) (.added n)

/-- Refresh the lease of a node. The node itself stays as it was registered. -/
def keepAlive (r : Registry) (now : Nat) (id : String) : Except RegistryError Registry :=
  match r.leases[id]? with
  | some lease => .ok { r with leases := r.leases.insert id { lease with refreshed := now } }
  | none => .error (.nodeUnknown id)

/-- Forget a lease, and announce that its node is gone. -/
def forget (r : Registry) (id : String) (lease : Lease) : Registry :=
  { r with leases := r.leases.erase id }.announce (·.wants lease.node) (.removed lease.node)

/-- Take a node out. What is announced is the node as it was registered. -/
def deregister (r : Registry) (id : String) : Registry :=
  match r.leases[id]? with
  | some lease => r.forget id lease
  | none => r

/-- The identities of the leases that are older than `ttl`. -/
def staleIds (r : Registry) (now ttl : Nat) : List String :=
  (r.leases.toList.filter fun (_, lease) => lease.isStale now ttl).map (·.1)

/-- Forget those of the given leases that are older than `ttl`, and say which nodes they were. A
lease that was refreshed since its identity was collected stays. -/
def removeStale (r : Registry) (now ttl : Nat) : List String → List Node × Registry
  | [] => ([], r)
  | id :: ids =>
    match r.leases[id]? with
    | some lease =>
      if lease.isStale now ttl then
        let (nodes, rest) := (r.forget id lease).removeStale now ttl ids
        (lease.node :: nodes, rest)
      else r.removeStale now ttl ids
    | none => r.removeStale now ttl ids

/-- Forget all leases that are older than `ttl`, and say which nodes they were. -/
def expire (r : Registry) (now ttl : Nat) : List Node × Registry :=
  r.removeStale now ttl (r.staleIds now ttl)

/-- The nodes of a selection, in the order of their identities. -/
def select (r : Registry) (s : Selection) : List Node :=
  (r.leases.values.map (·.node)).filter s.wants

/-- Follow a selection. The number of the new watch comes with the registry. -/
def watch (r : Registry) (s : Selection) : Nat × Registry :=
  (r.opened,
    { r with
      watches := r.watches ++ [(r.opened, ⟨s, { capacity := r.watchBuffer }⟩)]
      opened := r.opened + 1
      numbered := by
        rw [List.map_append, List.range_succ]
        exact r.numbered.append (List.Sublist.refl _) })

/-- The watch with a number, as long as it is open. -/
def watch? (r : Registry) (watch : Nat) : Option Watch :=
  (r.watches.lookup watch).filter (·.isOpen)

/-- The mailbox of a watch, as long as it is open. -/
def mailbox? (r : Registry) (watch : Nat) : Option (Mailbox Change) :=
  (r.watch? watch).map (·.mailbox)

/-- Put another mailbox in the place of the one that a watch has. -/
def setMailbox (r : Registry) (watch : Nat) (m : Mailbox Change) : Registry :=
  r.mapWatches fun number w => if number = watch then { w with mailbox := m } else w

/-- Close a watch. It is told nothing more. -/
def unwatch (r : Registry) (watch : Nat) : Registry :=
  match r.mailbox? watch with
  | some m => r.setMailbox watch m.close
  | none => r

/-- Take the oldest change out of a watch. -/
def receive? (r : Registry) (watch : Nat) : Option (Change × Registry) := do
  let (change, m) ← (← r.mailbox? watch).receive?
  return (change, r.setMailbox watch m)

/-- Take all changes out of a watch, unless it is closed. -/
def drain? (r : Registry) (watch : Nat) : Option (List Change × Registry) := do
  let m ← r.mailbox? watch
  if m.isOpen then
    let (changes, m) := m.drain
    return (changes, r.setMailbox watch m)
  else none

/-- How many nodes are registered, of all services. -/
def size (r : Registry) : Nat :=
  r.leases.size

/-- No node is registered. -/
def isEmpty (r : Registry) : Bool :=
  r.leases.isEmpty

/-! ## Looking up watches -/

/-- The first entry is found under its key, the others behind it. -/
theorem lookup_cons (w : Nat × Watch) (rest : List (Nat × Watch)) (n : Nat) :
    (w :: rest).lookup n = if n = w.1 then some w.2 else rest.lookup n := by
  rw [List.lookup_cons]
  split
  next heq => rw [if_pos (beq_iff_eq.mp heq)]
  next hne => rw [if_neg (beq_eq_false_iff_ne.mp hne)]

/-- A number that is not in use is not found. -/
theorem lookup_eq_none {ws : List (Nat × Watch)} {n : Nat} (h : n ∉ ws.map (·.1)) :
    ws.lookup n = none := by
  rw [List.lookup_eq_none_iff]
  intro w hw
  exact bne_iff_ne.mpr fun heq => h (List.mem_map.mpr ⟨w, hw, heq.symm⟩)

/-- Looking up goes through a change of what is kept under the numbers. -/
theorem lookup_mapWatches (r : Registry) (f : Nat → Watch → Watch) (n : Nat) :
    (r.mapWatches f).watches.lookup n = (r.watches.lookup n).map (f n) := by
  show (r.watches.map fun w => (w.1, f w.1 w.2)).lookup n = _
  induction r.watches with
  | nil => rfl
  | cons w rest ih =>
    rw [List.map_cons, lookup_cons, lookup_cons, ih]
    split
    next hkey => rw [hkey, Option.map_some]
    next => rfl

/-- Where no number is used twice, what is left out is not found and the rest is found as before. -/
theorem lookup_filter (p : Watch → Bool) {ws : List (Nat × Watch)} (h : (ws.map (·.1)).Nodup)
    (n : Nat) : (ws.filter (p ·.2)).lookup n = (ws.lookup n).filter p := by
  induction ws with
  | nil => rfl
  | cons w rest ih =>
    obtain ⟨hfresh, hrest⟩ := List.nodup_cons.mp h
    rw [List.filter_cons, lookup_cons]
    by_cases hkey : n = w.1
    · -- behind the entry its number is not used again
      have hgone : rest.lookup n = none := lookup_eq_none (hkey ▸ hfresh)
      subst hkey
      by_cases hp : p w.2 <;> simp [hp, ih hrest, hgone, lookup_cons, Option.filter]
    · by_cases hp : p w.2 <;> simp [hp, hkey, lookup_cons, ih hrest]

/-- The number of the next watch is not in use. -/
theorem lookup_opened (r : Registry) : r.watches.lookup r.opened = none :=
  lookup_eq_none fun h => by simpa using r.numbered.subset h

/-- A watch that is looked up is open. -/
theorem isOpen_of_watch? {r : Registry} {n : Nat} {w : Watch} (h : r.watch? n = some w) :
    r.watches.lookup n = some w ∧ w.isOpen = true :=
  Option.filter_eq_some_iff.mp h

/-- Letting go of the closed watches changes no open one. -/
@[simp] theorem watch?_prune (r : Registry) (n : Nat) : r.prune.watch? n = r.watch? n := by
  have hnodup : (r.watches.map (·.1)).Nodup := List.nodup_range.sublist r.numbered
  rw [watch?, prune, lookup_filter (·.isOpen) hnodup, Option.filter_filter, watch?]
  simp

/-- Where no closed watch is opened again, each open one is changed as it is told to be, and is
there as long as it is open. -/
theorem watch?_mapWatches (r : Registry) {f : Nat → Watch → Watch} {n : Nat}
    (hclosed : ∀ w, r.watches.lookup n = some w → (f n w).isOpen = true → w.isOpen = true) :
    (r.mapWatches f).watch? n = ((r.watch? n).map (f n)).filter (·.isOpen) := by
  rw [watch?, lookup_mapWatches, watch?]
  cases hlookup : r.watches.lookup n with
  | none => rfl
  | some w =>
    by_cases hopen : w.isOpen
    · simp [hopen, Option.filter]
    · have hfalse : (f n w).isOpen = false := by simpa using mt (hclosed w hlookup) hopen
      simp [hopen, hfalse, Option.filter]

/-- Each open watch is told what concerns it, and nothing else happens to it. -/
theorem watch?_announce (r : Registry) (concerns : Selection → Bool) (change : Change) (n : Nat) :
    (r.announce concerns change).watch? n = (r.watch? n).map (Watch.tell concerns change) := by
  rw [announce, watch?_mapWatches _ fun w _ hw => by rwa [w.isOpen_tell] at hw, watch?_prune,
    watch?]
  cases r.watches.lookup n with
  | none => rfl
  | some w => by_cases hopen : w.isOpen <;> simp [hopen, Option.filter]

/-- After an announcement no closed watch is left. -/
theorem isOpen_of_mem_announce {r : Registry} {concerns : Selection → Bool} {change : Change}
    {w : Nat × Watch} (h : w ∈ (r.announce concerns change).watches) : w.2.isOpen = true := by
  obtain ⟨old, hold, rfl⟩ := List.mem_map.mp h
  exact (old.2.isOpen_tell concerns change).trans (List.mem_filter.mp hold).2

/-- The watch whose mailbox is replaced is there as long as the new mailbox is open. -/
theorem watch?_setMailbox_self {r : Registry} {n : Nat} {w : Watch} (hw : r.watch? n = some w)
    (m : Mailbox Change) : (r.setMailbox n m).watch? n =
      (some { w with mailbox := m }).filter (·.isOpen) := by
  obtain ⟨hlookup, hopen⟩ := isOpen_of_watch? hw
  rw [setMailbox, watch?_mapWatches, hw, Option.map_some, if_pos rfl]
  intro w' hw' _
  rwa [← Option.some.inj (hlookup.symm.trans hw')]

/-- The other watches keep their mailboxes. -/
theorem watch?_setMailbox {r : Registry} {other n : Nat} (hne : other ≠ n) (m : Mailbox Change) :
    (r.setMailbox other m).watch? n = r.watch? n := by
  have hf : (fun w : Watch => if n = other then { w with mailbox := m } else w) = id :=
    funext fun w => if_neg hne.symm
  rw [watch?, setMailbox, lookup_mapWatches, hf, Option.map_id_fun, id, watch?]

/-- Each change that is received leaves one less in the watch. -/
theorem pending_of_receive? {r rest : Registry} {watch : Nat} {change : Change}
    (h : r.receive? watch = some (change, rest)) :
    ((rest.mailbox? watch).map (·.items.length)).getD 0 + 1 =
      ((r.mailbox? watch).map (·.items.length)).getD 0 := by
  unfold receive? at h
  simp only [Option.bind_eq_bind, Option.bind_eq_some_iff] at h
  obtain ⟨m, hm, ⟨item, left⟩, hreceive, heq⟩ := h
  injection heq with heq
  injection heq with hitem hrest
  subst hrest
  obtain ⟨w, hw, rfl⟩ := Option.map_eq_some_iff.mp hm
  have hopen : left.isOpen = true :=
    (Mailbox.isOpen_of_receive? hreceive).trans (isOpen_of_watch? hw).2
  rw [mailbox?, watch?_setMailbox_self hw, Option.filter_some, if_pos, hm]
  · exact Mailbox.length_of_receive? hreceive
  · exact hopen

end Registry

end RingRouting
