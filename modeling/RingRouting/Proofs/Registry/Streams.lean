import Mathlib.Data.List.Basic
import RingRouting.Proofs.Registry.Announcements

/-!
# The stream of a watch

A watch hands out, in order, the changes of its selection since it was opened, less those that were
raised while its mailbox was full. What is raised is told from the leases alone: `raised` looks at
no watch. An act does to a watch what it raises for its selection, and then what its reader does
(`Keyed.watch?_act`). Main statements: `Keyed.delivered_append_waiting`, what an open watch has
handed out with what waits in it, and `Keyed.bounded_after`, that no more waits in it than it may
hold.
-/

namespace RingRouting

namespace Mailbox

variable {α : Type} {m : Mailbox α}

/-- Of what is sent one after the other, an open mailbox keeps as much as it has room for. -/
theorem foldl_send_of_open (hopen : m.isOpen = true) (items : List α) :
    items.foldl send m =
      { m with items := m.items ++ items.take (m.capacity - m.items.length) } := by
  induction items generalizing m with
  | nil => rw [List.foldl_nil, List.take_nil, List.append_nil]
  | cons item rest ih =>
    rw [List.foldl_cons]
    by_cases hroom : m.items.length < m.capacity
    · have hsend : m.send item = { m with items := m.items ++ [item] } := by
        simp [send, accepts, hopen, hroom]
      have hleft : m.capacity - m.items.length = m.capacity - (m.items.length + 1) + 1 := by omega
      rw [hsend, ih (m := { m with items := m.items ++ [item] }) hopen, hleft, List.take_succ_cons]
      simp
    · have hsend : m.send item = m := by simp [send, accepts, hroom]
      have hleft : m.capacity - m.items.length = 0 := by omega
      rw [hsend, ih hopen, hleft, List.take_zero, List.take_zero]

theorem foldl_send_of_closed (hclosed : m.isOpen = false) (items : List α) :
    items.foldl send m = m := by
  induction items with
  | nil => rfl
  | cons item rest ih =>
    have hsend : m.send item = m := by simp [send, accepts, hclosed]
    rw [List.foldl_cons, hsend, ih]

/-- The capacity of a mailbox never changes. -/
theorem capacity_foldl_send (m : Mailbox α) (items : List α) :
    (items.foldl send m).capacity = m.capacity := by
  cases hopen : m.isOpen with
  | true => rw [foldl_send_of_open hopen]
  | false => rw [foldl_send_of_closed hopen]

end Mailbox

namespace Registry

/-! ## Acts -/

/-- One thing that is done to a registry. -/
inductive Act where
  | perform (op : Op)
  /-- Those of the given leases that are older than `ttl` expire, in this order. -/
  | sweep (now ttl : Nat) (ids : List String) (hids : ids.Nodup)

/-- The registry after an act. -/
def act (r : Registry) : Act → Registry
  | .perform op => r.perform op
  | .sweep now ttl ids _ => (r.removeStale now ttl ids).2

/-- The registry after acts one after the other. -/
def after (r : Registry) (acts : List Act) : Registry :=
  acts.foldl act r

/-- The removal of a node whose lease is older than `ttl`, for a selection that it is in. -/
def lapse? (r : Registry) (s : Selection) (now ttl : Nat) (id : String) : Option Change :=
  match r.leases[id]? with
  | some lease =>
    if lease.isStale now ttl && s.wants lease.node then some (.removed lease.node) else none
  | none => none

/-- The changes of a selection that an act brings about, in this order: each registration that it
takes in, and the removal of each node in it that leaves, expires, or is replaced by one that is not
in it. -/
def raised (r : Registry) (s : Selection) : Act → List Change
  | .perform (.expire now ttl) => r.leases.keys.filterMap (r.lapse? s now ttl)
  | .perform op => r.changes s op
  | .sweep now ttl ids _ => ids.filterMap (r.lapse? s now ttl)

/-- What an act takes out of a watch. -/
def handed (r : Registry) (watch : Nat) : Act → List Change
  | .perform (.receive reader) =>
    if reader = watch then ((r.receive? watch).map (·.1)).toList else []
  | .perform (.drain reader) => if reader = watch then ((r.drain? watch).map (·.1)).getD [] else []
  | _ => []

/-- What a watch hands out in the course of some acts. -/
def delivered (watch : Nat) : Registry → List Act → List Change
  | _, [] => []
  | r, a :: rest => r.handed watch a ++ (r.act a).delivered watch rest

/-- The changes of a selection in the course of some acts, less those raised while the mailbox of a
watch already held `bound` of them. -/
def streamed (watch : Nat) (s : Selection) (bound : Nat) : Registry → List Act → List Change
  | _, [] => []
  | r, a :: rest =>
    (r.raised s a).take (bound - (r.waiting watch).length) ++ (r.act a).streamed watch s bound rest

/-- What an operation of its reader does to a mailbox: what is taken out, and what is left. -/
def Op.read (m : Mailbox Change) : Op → List Change × Mailbox Change
  | .receive _ => (m.receive?.map fun (c, rest) => ([c], rest)).getD ([], m)
  | .drain _ => if m.isOpen then m.drain else ([], m)
  | .unwatch _ => ([], m.close)
  | _ => ([], m)

/-- What an act reads out of the mailbox of a watch, and what it leaves. -/
def Act.read (watch : Nat) (m : Mailbox Change) : Act → List Change × Mailbox Change
  | .perform op => if op.reader? = some watch then op.read m else ([], m)
  | .sweep .. => ([], m)

variable {r : Registry} {s : Selection} {watch : Nat} {w : Watch}

/-! ## What expires -/

/-- The removal of a node takes a stale lease and a selection that wants the node. -/
theorem lapse?_eq (r : Registry) (s : Selection) (now ttl : Nat) (id : String) :
    r.lapse? s now ttl id =
    (((r.leases[id]?.filter (·.isStale now ttl)).map (·.node)).filter s.wants).map .removed := by
  unfold lapse?
  cases r.leases[id]? with
  | none => rfl
  | some lease =>
    by_cases hstale : lease.isStale now ttl <;> by_cases hwants : s.wants lease.node <;>
      simp [hstale, hwants, Option.filter]

/-- The nodes that expire are those of the given leases that are stale, as none is given twice. -/
theorem fst_removeStale (r : Registry) (now ttl : Nat) {ids : List String} (hids : ids.Nodup) :
    (r.removeStale now ttl ids).1 =
      ids.filterMap fun id => (r.leases[id]?.filter (·.isStale now ttl)).map (·.node) := by
  induction ids generalizing r with
  | nil => rfl
  | cons id rest ih =>
    obtain ⟨hid, hrest⟩ := List.nodup_cons.mp hids
    unfold removeStale
    cases hlease : r.leases[id]? with
    | none => simp [hlease, ih _ hrest]
    | some lease =>
      by_cases hstale : lease.isStale now ttl
      · -- the leases that are still to be looked at are untouched
        have hsame : ∀ id' ∈ rest, (r.forget id lease).leases[id']? = r.leases[id']? := by
          intro id' hid'
          have hne : id ≠ id' := fun heq => hid (heq ▸ hid')
          simp [forget, Std.ExtTreeMap.getElem?_erase, hne]
        simp only [hstale, if_true, List.filterMap_cons, hlease, Option.filter_some,
          Option.map_some]
        rw [ih _ hrest]
        congr 1
        exact List.filterMap_congr fun id' hid' => by rw [hsame id' hid']
      · simp [hlease, hstale, ih _ hrest, Option.filter]

/-- A selection sees the stale nodes go in the order of the sweep. -/
theorem changes_sweep (r : Registry) (s : Selection) (now ttl : Nat) {ids : List String}
    (hids : ids.Nodup) :
    ((r.removeStale now ttl ids).1.filter s.wants).map .removed =
      ids.filterMap (r.lapse? s now ttl) := by
  rw [r.fst_removeStale now ttl hids, List.filter_filterMap, List.map_filterMap]
  exact List.filterMap_congr fun id _ => (r.lapse?_eq s now ttl id).symm

/-- No lease is found stale twice. -/
theorem nodup_staleIds (r : Registry) (now ttl : Nat) : (r.staleIds now ttl).Nodup := by
  have hkeys := r.leases.nodup_keys
  rw [← Std.ExtTreeMap.map_fst_toList_eq_keys] at hkeys
  exact (List.filter_sublist.map _).nodup hkeys

/-- When leases expire a selection sees its nodes go in the order of identities. -/
theorem changes_expire (r : Registry) (s : Selection) (now ttl : Nat) :
    r.changes s (.expire now ttl) = r.leases.keys.filterMap (r.lapse? s now ttl) := by
  refine (r.changes_sweep s now ttl (r.nodup_staleIds now ttl)).trans ?_
  rw [staleIds, ← Std.ExtTreeMap.map_fst_toList_eq_keys, List.filterMap_map, List.filterMap_map,
    List.filterMap_filter]
  refine List.filterMap_congr fun ⟨id, lease⟩ hentry => ?_
  have hlease := Std.ExtTreeMap.mem_toList_iff_getElem?_eq_some.mp hentry
  by_cases hstale : lease.isStale now ttl
  · simp [hstale]
  · simp [hstale, lapse?, hlease]

/-! ## What an act does to a watch -/

/-- What is raised is announced, whatever is done to the registry by someone else than the
reader. -/
theorem Keyed.announced_act (hr : r.Keyed) (a : Act)
    (hreader : ∀ op, a = .perform op → op.reader? ≠ some watch) :
    Announced watch s r (r.raised s a) (r.act a) := by
  cases a with
  | sweep now ttl ids hids =>
    rw [raised, ← r.changes_sweep s now ttl hids]
    exact hr.announced_removeStale now ttl ids
  | perform op =>
    have hannounced := hr.announced_perform (s := s) op (hreader op rfl)
    cases op with
    | expire now ttl =>
      rw [raised, ← changes_expire]
      exact hannounced
    | register | keepAlive | deregister | watch | receive | drain | unwatch => exact hannounced

/-- Every act keeps the leases under their identities. -/
theorem Keyed.act (hr : r.Keyed) (a : Act) : (r.act a).Keyed := by
  cases a with
  | sweep now ttl ids hids =>
    have hannounced : Announced 0 default r _ (r.removeStale now ttl ids).2 :=
      hr.announced_removeStale now ttl ids
    exact hannounced.keyed
  | perform op => exact hr.perform op

theorem Keyed.after (hr : r.Keyed) (acts : List Act) : (r.after acts).Keyed := by
  induction acts generalizing r with
  | nil => exact hr
  | cons a rest ih => exact ih (hr.act a)

/-- The reader of an open watch only changes what is in its mailbox; that of a closed one changes
nothing. -/
theorem perform_of_reader (r : Registry) {op : Op} {reader : Nat}
    (hreader : op.reader? = some reader) : r.perform op = r ∨
      ∃ w m, r.watch? reader = some w ∧ r.perform op = r.setMailbox reader m := by
  cases hw : r.watch? reader with
  | none =>
    have hmailbox : r.mailbox? reader = none := by rw [mailbox?, hw, Option.map_none]
    left
    cases op with
    | register | keepAlive | deregister | expire | watch => cases hreader
    | receive reader' =>
      obtain rfl := Option.some.inj hreader
      simp [perform, receive?, hmailbox]
    | drain reader' =>
      obtain rfl := Option.some.inj hreader
      simp [perform, drain?, hmailbox]
    | unwatch reader' =>
      obtain rfl := Option.some.inj hreader
      simp [perform, unwatch, hmailbox]
  | some w =>
    have hmailbox : r.mailbox? reader = some w.mailbox := by rw [mailbox?, hw, Option.map_some]
    cases op with
    | register | keepAlive | deregister | expire | watch => cases hreader
    | receive reader' =>
      obtain rfl := Option.some.inj hreader
      cases hreceive : w.mailbox.receive? with
      | none => exact .inl (by simp [perform, receive?, hmailbox, hreceive])
      | some taken =>
        exact .inr ⟨w, taken.2, rfl, by simp [perform, receive?, hmailbox, hreceive]⟩
    | drain reader' =>
      obtain rfl := Option.some.inj hreader
      have hopen : w.mailbox.isOpen = true := (isOpen_of_watch? hw).2
      exact .inr ⟨w, w.mailbox.drain.2, rfl, by simp [perform, drain?, hmailbox, hopen]⟩
    | unwatch reader' =>
      obtain rfl := Option.some.inj hreader
      exact .inr ⟨w, w.mailbox.close, rfl, by simp [perform, unwatch, hmailbox]⟩

/-- A reader does nothing to the leases. -/
theorem leases_perform_of_reader (r : Registry) {op : Op} {reader : Nat}
    (hreader : op.reader? = some reader) : (r.perform op).leases = r.leases := by
  rcases r.perform_of_reader hreader with heq | ⟨w, m, -, heq⟩ <;> rw [heq]
  rfl

/-- Neither the bound of a new watch nor its number changes. -/
def SameWatches (r q : Registry) : Prop :=
  q.watchBuffer = r.watchBuffer ∧ q.opened = r.opened

/-- Leases that expire do not open a watch. -/
theorem sameWatches_removeStale (r : Registry) (now ttl : Nat) (ids : List String) :
    r.SameWatches (r.removeStale now ttl ids).2 := by
  induction ids generalizing r with
  | nil => exact ⟨rfl, rfl⟩
  | cons id rest ih =>
    unfold removeStale
    cases r.leases[id]? with
    | none => exact ih r
    | some lease =>
      by_cases hstale : lease.isStale now ttl
      · simp only [hstale, if_true]
        exact ih (r.forget id lease)
      · simp only [hstale]
        exact ih r

/-- Reading or closing a watch does not open another. -/
theorem sameWatches_perform_of_reader (r : Registry) {op : Op} {reader : Nat}
    (hreader : op.reader? = some reader) : r.SameWatches (r.perform op) := by
  rcases r.perform_of_reader hreader with heq | ⟨w, m, -, heq⟩ <;> rw [heq] <;> exact ⟨rfl, rfl⟩

/-- Only a watch that is opened comes to those that are there. -/
theorem sameWatches_act (r : Registry) {a : Act} (ha : ∀ s, a ≠ .perform (.watch s)) :
    r.SameWatches (r.act a) := by
  cases a with
  | sweep now ttl ids => exact r.sameWatches_removeStale now ttl ids
  | perform op =>
    cases op with
    | register now n =>
      simp only [Registry.act, perform, Registry.register]
      cases r.leases[n.id]? <;> exact ⟨rfl, rfl⟩
    | keepAlive now id =>
      simp only [Registry.act, perform, keepAlive]
      cases r.leases[id]? <;> exact ⟨rfl, rfl⟩
    | deregister id =>
      simp only [Registry.act, perform, Registry.deregister]
      cases r.leases[id]? <;> exact ⟨rfl, rfl⟩
    | expire now ttl => exact r.sameWatches_removeStale now ttl _
    | watch s => exact absurd rfl (ha s)
    | receive | drain | unwatch => exact r.sameWatches_perform_of_reader rfl

/-- The bound of a new watch stays, and numbers are given in order. -/
theorem watchBuffer_act (r : Registry) (a : Act) :
    (r.act a).watchBuffer = r.watchBuffer ∧ r.opened ≤ (r.act a).opened := by
  by_cases ha : ∃ s, a = .perform (.watch s)
  · obtain ⟨s, rfl⟩ := ha
    exact ⟨rfl, Nat.le_succ _⟩
  · obtain ⟨hbuffer, hopened⟩ := r.sameWatches_act (not_exists.mp ha)
    exact ⟨hbuffer, Nat.le_of_eq hopened.symm⟩

theorem watchBuffer_after (r : Registry) (acts : List Act) :
    (r.after acts).watchBuffer = r.watchBuffer := by
  induction acts generalizing r with
  | nil => rfl
  | cons a rest ih => exact (ih (r.act a)).trans (r.watchBuffer_act a).1

/-- What the reader of a watch does to it. The watch is there afterwards unless it was closed. -/
theorem watch?_perform_of_reader (hw : r.watch? watch = some w) {op : Op}
    (hreader : op.reader? = some watch) :
    (r.perform op).watch? watch =
        (some { w with mailbox := (op.read w.mailbox).2 }).filter (·.isOpen) ∧
      r.handed watch (.perform op) = (op.read w.mailbox).1 := by
  have hmailbox : r.mailbox? watch = some w.mailbox := by rw [mailbox?, hw, Option.map_some]
  have hopen : w.mailbox.isOpen = true := (isOpen_of_watch? hw).2
  have hsame : some w = (some w).filter (·.isOpen) := (if_pos hopen).symm
  cases op with
  | register | keepAlive | deregister | expire | watch => cases hreader
  | receive reader =>
    obtain rfl := Option.some.inj hreader
    cases hreceive : w.mailbox.receive? with
    | none => simpa [perform, receive?, handed, Op.read, hmailbox, hreceive, hw] using hsame
    | some taken =>
      simpa [perform, receive?, handed, Op.read, hmailbox, hreceive]
        using watch?_setMailbox_self hw taken.2
  | drain reader =>
    obtain rfl := Option.some.inj hreader
    simpa [perform, drain?, handed, Op.read, hmailbox, hopen]
      using watch?_setMailbox_self hw w.mailbox.drain.2
  | unwatch reader =>
    obtain rfl := Option.some.inj hreader
    simpa [perform, unwatch, handed, Op.read, hmailbox]
      using watch?_setMailbox_self hw w.mailbox.close

/-- Only its reader takes something out of a watch. -/
theorem handed_eq_nil (r : Registry) {a : Act}
    (hreader : ∀ op, a = .perform op → op.reader? ≠ some watch) :
    r.handed watch a = [] := by
  cases a with
  | sweep => rfl
  | perform op =>
    have hne := hreader op rfl
    cases op with
    | register | keepAlive | deregister | expire | watch | unwatch => rfl
    | receive reader | drain reader => exact if_neg fun heq => hne (congrArg some heq)

/-- Nothing is taken out of a watch that is gone, and it does not come back. -/
theorem Gone.act (h : r.Gone watch) (hr : r.Keyed) (a : Act) :
    (r.act a).Gone watch ∧ r.handed watch a = [] := by
  by_cases hreader : ∀ op, a = .perform op → op.reader? ≠ some watch
  · exact ⟨(hr.announced_act (s := default) a hreader).gone h, r.handed_eq_nil hreader⟩
  · simp only [not_forall, not_not] at hreader
    obtain ⟨op, rfl, hreader⟩ := hreader
    have hmailbox : r.mailbox? watch = none := by rw [mailbox?, h.watch?_eq, Option.map_none]
    constructor
    · rcases r.perform_of_reader hreader with heq | ⟨w, m, hw, -⟩
      · rw [Registry.act, heq]
        exact h
      · rw [h.watch?_eq] at hw
        cases hw
    · cases op with
      | register | keepAlive | deregister | expire | watch => cases hreader
      | receive reader => simp [handed, receive?, hmailbox]
      | drain reader => simp [handed, drain?, hmailbox]
      | unwatch => rfl

/-- What a reader does to its watch changes no selection. -/
theorem raised_of_reader (r : Registry) (s : Selection) {op : Op} {reader : Nat}
    (hreader : op.reader? = some reader) : r.raised s (.perform op) = [] := by
  cases op with
  | register | keepAlive | deregister | expire | watch => cases hreader
  | receive | drain | unwatch => rfl

/-- A watch that is gone stays gone and hands out nothing. -/
theorem Gone.after (h : r.Gone watch) (hr : r.Keyed) (acts : List Act) :
    (r.after acts).Gone watch ∧ r.delivered watch acts = [] := by
  induction acts generalizing r with
  | nil => exact ⟨h, rfl⟩
  | cons a rest ih =>
    obtain ⟨hgone, hhanded⟩ := h.act hr a
    obtain ⟨hafter, hdelivered⟩ := ih hgone (hr.act a)
    exact ⟨hafter, by rw [delivered, hhanded, hdelivered, List.nil_append]⟩

/-- A watch is told what an act raises for its selection, and then its reader may take something out
or close it. -/
theorem Keyed.watch?_act (hr : r.Keyed) (hw : r.watch? watch = some w) (a : Act) :
    let told := (r.raised w.selection a).foldl Mailbox.send w.mailbox
    (r.act a).watch? watch =
        (some { w with mailbox := (a.read watch told).2 }).filter (·.isOpen) ∧
      r.handed watch a = (a.read watch told).1 := by
  intro told
  by_cases hreader : ∀ op, a = .perform op → op.reader? ≠ some watch
  · have hread : a.read watch told = ([], told) := by
      cases a with
      | sweep => rfl
      | perform op => exact if_neg (hreader op rfl)
    have hact : (r.act a).watch? watch = some { w with mailbox := told } :=
      (hr.announced_act a hreader).watch?_of_some w hw rfl
    rw [hread, hact, Option.filter_some, if_pos (isOpen_of_watch? hact).2]
    exact ⟨rfl, r.handed_eq_nil hreader⟩
  · simp only [not_forall, not_not] at hreader
    obtain ⟨op, rfl, hreader⟩ := hreader
    have htold : told = w.mailbox := by
      show (r.raised w.selection (.perform op)).foldl Mailbox.send w.mailbox = w.mailbox
      rw [raised_of_reader r _ hreader, List.foldl_nil]
    rw [Act.read, if_pos hreader, htold]
    exact watch?_perform_of_reader hw hreader

/-- After an act an open watch is open or gone. -/
theorem Keyed.open_or_gone_act (hr : r.Keyed) (hw : r.watch? watch = some w) (a : Act) :
    let out := a.read watch ((r.raised w.selection a).foldl Mailbox.send w.mailbox)
    r.handed watch a = out.1 ∧
      ((r.act a).watch? watch = some { w with mailbox := out.2 } ∨ (r.act a).Gone watch) := by
  intro out
  obtain ⟨hact, hhanded⟩ := hr.watch?_act hw a
  refine ⟨hhanded, ?_⟩
  by_cases hopen : ({ w with mailbox := out.2 } : Watch).isOpen
  · exact .inl (hact.trans (if_pos hopen))
  · exact .inr ⟨hact.trans (if_neg hopen), 
      Nat.lt_of_lt_of_le (lt_opened_of_watch? hw) (r.watchBuffer_act a).2⟩

/-! ## What is handed out -/

/-- What a reader can do to a mailbox: what it takes out, and what it leaves. -/
structure Drawn (m : Mailbox Change) (out : List Change × Mailbox Change) : Prop where
  capacity_eq : out.2.capacity = m.capacity
  length_le : out.2.items.length ≤ m.items.length
  /-- Nothing is lost, unless the mailbox is closed. -/
  append_eq : out.2.isOpen = true → out.1 ++ out.2.items = m.items

theorem drawn_nil (m : Mailbox Change) : Drawn m ([], m) :=
  ⟨rfl, Nat.le_refl _, fun _ => rfl⟩

/-- Every operation of a reader draws on the mailbox. -/
theorem Op.drawn_read (op : Op) (m : Mailbox Change) : Drawn m (op.read m) := by
  cases op with
  | register | keepAlive | deregister | expire | watch => exact drawn_nil m
  | receive reader =>
    rw [Op.read, Mailbox.receive?]
    cases hitems : m.items with
    | nil => exact drawn_nil m
    | cons c rest =>
      refine ⟨rfl, ?_, fun _ => hitems.symm⟩
      rw [hitems]
      exact Nat.le_succ _
  | drain reader =>
    rw [Op.read]
    split
    next => exact ⟨rfl, Nat.zero_le _, fun _ => List.append_nil _⟩
    next => exact drawn_nil m
  | unwatch reader => exact ⟨rfl, Nat.zero_le _, nofun⟩

theorem Act.drawn_read (a : Act) (m : Mailbox Change) : Drawn m (a.read watch m) := by
  cases a with
  | sweep => exact drawn_nil m
  | perform op =>
    rw [Act.read]
    split
    next => exact op.drawn_read m
    next => exact drawn_nil m

variable {bound : Nat}

/-- A mailbox holds no more than it may. -/
structure Bounded (bound : Nat) (m : Mailbox Change) : Prop where
  capacity_eq : m.capacity = bound
  length_le : m.items.length ≤ bound

/-- A mailbox that is told changes keeps its bound. -/
theorem Bounded.foldl_send {m : Mailbox Change} (h : Bounded bound m) (cs : List Change) :
    Bounded bound (cs.foldl Mailbox.send m) := by
  cases hopen : m.isOpen with
  | true =>
    rw [Mailbox.foldl_send_of_open hopen]
    refine ⟨h.capacity_eq, ?_⟩
    have hfull := h.length_le
    have hcapacity := h.capacity_eq
    rw [List.length_append, List.length_take]
    omega
  | false =>
    rw [Mailbox.foldl_send_of_closed hopen]
    exact h

/-- A mailbox that is drawn on keeps its bound. -/
theorem Bounded.drawn {m : Mailbox Change} {out : List Change × Mailbox Change}
    (h : Bounded bound m) (hdrawn : Drawn m out) : Bounded bound out.2 :=
  ⟨hdrawn.capacity_eq.trans h.capacity_eq, Nat.le_trans hdrawn.length_le h.length_le⟩

/-- A watch that holds no more than it may never does, as long as it is open. -/
theorem Keyed.bounded_after (hr : r.Keyed) (hw : r.watch? watch = some w)
    (hbounded : Bounded bound w.mailbox) (acts : List Act) :
    (∃ w', (r.after acts).watch? watch = some w' ∧ Bounded bound w'.mailbox) ∨
      (r.after acts).Gone watch := by
  induction acts generalizing r w with
  | nil => exact .inl ⟨w, hw, hbounded⟩
  | cons a rest ih =>
    rcases (hr.open_or_gone_act hw a).2 with hact | hgone
    · exact ih (hr.act a) hact ((hbounded.foldl_send _).drawn (a.drawn_read _))
    · exact .inr (hgone.after (hr.act a) rest).1

/-- What an open watch has handed out, with what waits in it, is the stream of the changes that it
had room for, from what waited in it before. -/
theorem Keyed.delivered_append_waiting (hr : r.Keyed) (hw : r.watch? watch = some w)
    (hcapacity : w.mailbox.capacity = bound) (acts : List Act)
    (hopen : (r.after acts).watch? watch ≠ none) :
    r.delivered watch acts ++ (r.after acts).waiting watch =
      w.mailbox.items ++ r.streamed watch w.selection bound acts := by
  induction acts generalizing r w with
  | nil =>
    rw [delivered, streamed, List.append_nil, List.nil_append]
    exact waiting_eq hw
  | cons a rest ih =>
    -- a watch that is open at the end was not gone in between
    obtain ⟨hhanded, hact⟩ := hr.open_or_gone_act hw a
    generalize htold : (r.raised w.selection a).foldl Mailbox.send w.mailbox = told at hact hhanded
    have hdrawn : Drawn told (a.read watch told) := a.drawn_read told
    have hcapacity' : told.capacity = bound := by
      rw [← htold, Mailbox.capacity_foldl_send, hcapacity]
    rcases hact with hact | hgone
    · have hrest := ih (hr.act a) hact (hdrawn.capacity_eq.trans hcapacity') hopen
      have hopen' : (a.read watch told).2.isOpen = true := (isOpen_of_watch? hact).2
      have hbefore : w.mailbox.isOpen = true := (isOpen_of_watch? hw).2
      rw [Mailbox.foldl_send_of_open hbefore, hcapacity] at htold
      have hitems : told.items = w.mailbox.items ++
          (r.raised w.selection a).take (bound - w.mailbox.items.length) := by rw [← htold]
      calc r.delivered watch (a :: rest) ++ (r.after (a :: rest)).waiting watch
        _ = (a.read watch told).1 ++
            ((r.act a).delivered watch rest ++ ((r.act a).after rest).waiting watch) := by
          rw [delivered, hhanded, List.append_assoc]
          rfl
        _ = (a.read watch told).1 ++ (a.read watch told).2.items ++
            (r.act a).streamed watch w.selection bound rest := by rw [hrest, List.append_assoc]
        _ = w.mailbox.items ++ r.streamed watch w.selection bound (a :: rest) := by
          rw [hdrawn.append_eq hopen', hitems, streamed, waiting_eq hw, List.append_assoc]
    · exact absurd (hgone.after (hr.act a) rest).1.watch?_eq hopen

end Registry

end RingRouting
