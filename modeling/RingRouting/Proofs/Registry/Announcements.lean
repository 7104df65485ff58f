import RingRouting.Proofs.Replay
import RingRouting.Registry

/-!
# What a registry announces

Whoever follows a selection of nodes is told of each change to it. What is told is enough to keep a
roster of the selection up to date: replayed on the nodes that were selected before an operation,
the announced changes give the nodes that are selected after it, also where a node leaves the
selection by being registered anew with other properties. Main statements:
`Keyed.announced_perform`, what an operation announces to a watch, and `Followed.foldl_waiting`,
that what waits in a watch which loses nothing says what is selected.
-/

namespace RingRouting

/-- A watch that was told some changes. -/
def Watch.hear (w : Watch) (changes : List Change) : Watch :=
  { w with mailbox := changes.foldl Mailbox.send w.mailbox }

theorem Watch.hear_append (w : Watch) (changes changes' : List Change) :
    w.hear (changes ++ changes') = (w.hear changes).hear changes' := by
  simp only [hear, List.foldl_append]

namespace Registry

/-- What can be done to a registry. -/
inductive Op where
  | register (now : Nat) (n : Node)
  | keepAlive (now : Nat) (id : String)
  | deregister (id : String)
  | expire (now ttl : Nat)
  /-- Open a watch. -/
  | watch (s : Selection)
  /-- Take the oldest change out of a watch. -/
  | receive (watch : Nat)
  /-- Take all changes out of a watch. -/
  | drain (watch : Nat)
  /-- Close a watch. -/
  | unwatch (watch : Nat)

/-- The registry after an operation. One that is refused changes nothing. -/
def perform (r : Registry) : Op → Registry
  | .register now n => r.register now n
  | .keepAlive now id => ((r.keepAlive now id).toOption).getD r
  | .deregister id => r.deregister id
  | .expire now ttl => (r.expire now ttl).2
  | .watch s => (r.watch s).2
  | .receive reader => ((r.receive? reader).map (·.2)).getD r
  | .drain reader => ((r.drain? reader).map (·.2)).getD r
  | .unwatch reader => r.unwatch reader

/-- The watch that an operation takes changes out of or closes. -/
def Op.reader? : Op → Option Nat
  | .receive reader => some reader
  | .drain reader => some reader
  | .unwatch reader => some reader
  | _ => none

/-- The operation is about nodes, and not about leases and watches alone. -/
def Op.isChange : Op → Bool
  | .register .. | .deregister .. | .expire .. => true
  | _ => false

/-- Each lease is kept under the identity of its node. -/
def Keyed (r : Registry) : Prop :=
  ∀ (id : String) lease, r.leases[id]? = some lease → lease.node.id = id

/-- The nodes of a selection by their identities. -/
def roster (r : Registry) (s : Selection) : Roster :=
  ⟨r.leases.filterMap fun _ lease => if s.wants lease.node then some lease.node else none⟩

/-- What an operation announces to those who follow a selection, in this order. -/
def changes (r : Registry) (s : Selection) : Op → List Change
  | .register _ n =>
    (match r.leases[n.id]? with
      | some previous =>
        if s.wants previous.node && !s.wants n then [.removed previous.node] else []
      | none => []) ++ if s.wants n then [.added n] else []
  | .deregister id =>
    match r.leases[id]? with
    | some lease => if s.wants lease.node then [.removed lease.node] else []
    | none => []
  | .expire now ttl => ((r.expire now ttl).1.filter s.wants).map .removed
  | _ => []

/-! ## Selections -/

variable {r r' r'' : Registry} {s : Selection} {watch : Nat} {cs cs' : List Change}

/-- A selection holds the registered nodes that it wants. -/
theorem get?_roster (r : Registry) (s : Selection) (id : String) :
    (r.roster s).get? id = (r.leases[id]?.map (·.node)).filter s.wants := by
  simp only [roster, Roster.get?, Std.ExtTreeMap.getElem?_filterMap']
  cases r.leases[id]? <;> rfl

/-- Its nodes in order are what `select` lists. -/
theorem toList_roster (r : Registry) (s : Selection) : (r.roster s).toList = r.select s := by
  rw [Roster.toList, roster, select, TreeMap.values_eq_map_toList, TreeMap.values_eq_map_toList,
    Std.ExtTreeMap.toList_filterMap]
  induction r.leases.toList with
  | nil => rfl
  | cons entry rest ih => by_cases h : s.wants entry.2.node <;> simp_all

/-- Its nodes are kept under their identities, as the leases are. -/
theorem Keyed.keyed_roster (hr : r.Keyed) (s : Selection) : (r.roster s).Keyed := by
  intro id n hn
  rw [get?_roster] at hn
  obtain ⟨lease, hlease, rfl⟩ := Option.map_eq_some_iff.mp (Option.filter_eq_some_iff.mp hn).1
  exact hr id lease hlease

/-- Fetching a selection gives all its nodes. -/
theorem Keyed.ofList_select (hr : r.Keyed) (s : Selection) :
    Roster.ofList (r.select s) = r.roster s := by
  rw [← toList_roster, (hr.keyed_roster s).ofList_toList]

/-! ## Watches -/

@[simp] theorem leases_announce (r : Registry) (concerns : Selection → Bool) (c : Change) :
    (r.announce concerns c).leases = r.leases := rfl

/-- What an announcement does to an open watch. -/
theorem watch?_announce_eq_some {w : Watch} (hw : r.watch? watch = some w)
    (concerns : Selection → Bool) (c : Change) : (r.announce concerns c).watch? watch =
      some (w.hear (if concerns w.selection then [c] else [])) := by
  rw [watch?_announce, hw, Option.map_some, Watch.tell]
  split <;> rfl

/-- A watch that was opened and is closed by now. -/
structure Gone (watch : Nat) (r : Registry) : Prop where
  watch?_eq : r.watch? watch = none
  lt_opened : watch < r.opened

/-- Announcements do not open a watch again. -/
theorem Gone.announce (h : r.Gone watch) (concerns : Selection → Bool) (c : Change) :
    (r.announce concerns c).Gone watch :=
  ⟨by rw [watch?_announce, h.watch?_eq, Option.map_none], h.lt_opened⟩

/-- What is done to the mailbox of another watch does not open a watch again. -/
theorem Gone.setMailbox {other : Nat} (h : r.Gone watch) (hne : other ≠ watch)
    (m : Mailbox Change) : (r.setMailbox other m).Gone watch :=
  ⟨(watch?_setMailbox hne m).trans h.watch?_eq, h.lt_opened⟩

/-- A new watch is open, with room for as many changes as the registry keeps for each. -/
theorem watch?_watch (r : Registry) (s : Selection) :
    (r.watch s).2.watch? (r.watch s).1 = some ⟨s, { capacity := r.watchBuffer }⟩ := by
  rw [watch?, watch, List.lookup_append, lookup_opened, Option.none_or, lookup_cons, if_pos rfl]
  rfl

/-- A new watch does not disturb those that were opened before. -/
theorem watch?_watch_of_lt (s : Selection) (hlt : watch < r.opened) :
    (r.watch s).2.watch? watch = r.watch? watch := by
  rw [watch?, Registry.watch, List.lookup_append, lookup_cons, if_neg (Nat.ne_of_lt hlt),
    List.lookup_nil, Option.or_none, watch?]

/-- The number of an open watch was given to it. -/
theorem lt_opened_of_watch? {w : Watch} (hw : r.watch? watch = some w) : watch < r.opened := by
  by_contra hle
  have hnone : r.watches.lookup watch = none := lookup_eq_none fun hmem =>
    hle (List.mem_range.mp (r.numbered.subset hmem))
  rw [(isOpen_of_watch? hw).1] at hnone
  cases hnone

/-! ## Announcements -/

/-- What happens to a selection and to a watch on it: the announced changes say what becomes of the
selection, and the watch is told them. -/
structure Announced (watch : Nat) (s : Selection) (r : Registry) (cs : List Change)
    (r' : Registry) : Prop where
  keyed : r'.Keyed
  get?_roster : ∀ id, (r'.roster s).get? id = (lastWord? id cs).getD ((r.roster s).get? id)
  watch?_of_some : ∀ w, r.watch? watch = some w → w.selection = s →
    r'.watch? watch = some (w.hear cs)
  gone : r.Gone watch → r'.Gone watch

/-- The announced changes, replayed on what was selected, give what is selected. -/
theorem Announced.roster_eq (h : Announced watch s r cs r') :
    r'.roster s = cs.foldl Roster.apply (r.roster s) :=
  Roster.ext_get? fun id => by rw [h.get?_roster, Roster.get?_foldl_apply]

/-- What is announced one after the other is announced together. -/
theorem Announced.trans (h : Announced watch s r cs r') (h' : Announced watch s r' cs' r'') :
    Announced watch s r (cs ++ cs') r'' where
  keyed := h'.keyed
  get?_roster id := by
    rw [h'.get?_roster, h.get?_roster, lastWord?_append]
    cases lastWord? id cs' <;> rfl
  watch?_of_some w hw hs := by
    rw [Watch.hear_append]
    exact h'.watch?_of_some _ (h.watch?_of_some w hw hs) hs
  gone hgone := h'.gone (h.gone hgone)

/-- Nothing is announced where the selected nodes stay as they are. -/
theorem announced_nil (hkeyed : r'.Keyed) (hroster : r'.roster s = r.roster s)
    (hwatches : watch < r.opened → r'.watch? watch = r.watch? watch)
    (hopened : r.opened ≤ r'.opened) :
    Announced watch s r [] r' where
  keyed := hkeyed
  get?_roster id := by rw [hroster, lastWord?, Option.getD_none]
  watch?_of_some _ hw _ := (hwatches (lt_opened_of_watch? hw)).trans hw
  gone hgone :=
    ⟨(hwatches hgone.lt_opened).trans hgone.watch?_eq, Nat.lt_of_lt_of_le hgone.lt_opened hopened⟩

/-- Where nothing happens, nothing is announced. -/
theorem Keyed.announced_refl (hr : r.Keyed) : Announced watch s r [] r :=
  announced_nil hr rfl (fun _ => rfl) (Nat.le_refl _)

/-- A lease that is taken out leaves the others under their identities. -/
theorem Keyed.forget (hr : r.Keyed) (id : String) (lease : Lease) : (r.forget id lease).Keyed := by
  intro id' lease' h
  simp only [Registry.forget, leases_announce, Std.ExtTreeMap.getElem?_erase] at h
  split at h
  next => cases h
  next => exact hr id' lease' h

/-- Who followed a node is told that it is gone. -/
theorem Keyed.announced_forget (hr : r.Keyed) {id : String} {lease : Lease}
    (hlease : r.leases[id]? = some lease) :
    Announced watch s r (if s.wants lease.node then [.removed lease.node] else [])
      (r.forget id lease) where
  keyed := hr.forget id lease
  get?_roster other := by
    have hid := hr id lease hlease
    rw [Registry.get?_roster, Registry.get?_roster]
    simp only [Registry.forget, leases_announce, Std.ExtTreeMap.getElem?_erase,
      Std.LawfulEqOrd.compare_eq_iff_eq]
    by_cases heq : id = other
    · subst heq
      by_cases hwants : s.wants lease.node <;>
        simp [hwants, hlease, hid, lastWord?, Change.says?_removed, Option.filter]
    · by_cases hwants : s.wants lease.node <;>
        simp [hwants, heq, hid, lastWord?, Change.says?_removed]
  watch?_of_some w hw hs := by
    have herased : ({ r with leases := r.leases.erase id } : Registry).watch? watch = some w := hw
    subst hs
    exact watch?_announce_eq_some herased _ _
  gone hgone := by
    have herased : ({ r with leases := r.leases.erase id } : Registry).Gone watch :=
      ⟨hgone.watch?_eq, hgone.lt_opened⟩
    exact herased.announce _ _

/-- Of the stale nodes that are removed, those of the selection are announced. -/
theorem Keyed.announced_removeStale (hr : r.Keyed) (now ttl : Nat) (ids : List String) :
    Announced watch s r (((r.removeStale now ttl ids).1.filter s.wants).map .removed)
      (r.removeStale now ttl ids).2 := by
  induction ids generalizing r with
  | nil => exact hr.announced_refl
  | cons id rest ih =>
    unfold removeStale
    cases hlease : r.leases[id]? with
    | none => exact ih hr
    | some lease =>
      dsimp only
      split
      next =>
        have hforget : Announced watch s r _ (r.forget id lease) := hr.announced_forget hlease
        have htrans := hforget.trans (ih (hr.forget id lease))
        by_cases hwants : s.wants lease.node
        · simpa [hwants] using htrans
        · simpa [hwants] using htrans
      next => exact ih hr

/-- A registration puts a lease in place of the one before it. -/
theorem leases_register (r : Registry) (now : Nat) (n : Node) :
    (r.register now n).leases = r.leases.insert n.id ⟨n, now⟩ := by
  unfold Registry.register
  cases r.leases[n.id]? <;> rfl

/-- A registered node joins the selection, or leaves it if it is not wanted any more. -/
theorem get?_roster_register (r : Registry) (s : Selection) (now : Nat) (n : Node) (id : String) :
    ((r.register now n).roster s).get? id =
      if n.id = id then (some n).filter s.wants else (r.roster s).get? id := by
  rw [get?_roster, get?_roster, leases_register, Std.ExtTreeMap.getElem?_insert]
  simp only [Std.LawfulEqOrd.compare_eq_iff_eq]
  split <;> rfl

/-- Who followed what a node was, and does not follow what it is, is told that it is gone. -/
theorem Keyed.announced_register (hr : r.Keyed) (now : Nat) (n : Node) :
    Announced watch s r (r.changes s (.register now n)) (r.register now n) where
  keyed id lease h := by
    rw [leases_register, Std.ExtTreeMap.getElem?_insert] at h
    split at h
    next heq =>
      rw [← Option.some.inj h]
      exact Std.LawfulEqOrd.eq_of_compare heq
    next => exact hr id lease h
  get?_roster id := by
    rw [get?_roster_register]
    by_cases heq : n.id = id
    · subst heq
      rw [if_pos rfl, Registry.get?_roster]
      cases hlease : r.leases[n.id]? with
      | none =>
        by_cases hwants : s.wants n <;>
        simp [changes, hlease, hwants, lastWord?, Change.says?_added]
      | some previous =>
        -- the removal of the old node is about the same identity, but comes first
        have hid := hr n.id previous hlease
        by_cases hwants : s.wants n <;> by_cases hwanted : s.wants previous.node <;>
          simp [changes, hlease, hwants, hwanted, hid, lastWord?, Change.says?_added,
            Change.says?_removed, Option.filter]
    · rw [if_neg heq]
      have hadded : (Change.added n).says? id = none := by rw [Change.says?_added, if_neg heq]
      cases hlease : r.leases[n.id]? with
      | none => by_cases hwants : s.wants n <;> simp [changes, hlease, hwants, lastWord?, hadded]
      | some previous =>
        have hremoved : (Change.removed previous.node).says? id = none := by
          rw [Change.says?_removed, hr n.id previous hlease, if_neg heq]
        by_cases hwants : s.wants n <;> by_cases hwanted : s.wants previous.node <;>
          simp [changes, hlease, hwants, hwanted, lastWord?, hadded, hremoved]
  watch?_of_some w hw hs := by
    subst hs
    have hstored : ({ r with leases := r.leases.insert n.id ⟨n, now⟩ } : Registry).watch? watch =
      some w := hw
    cases hlease : r.leases[n.id]? with
    | none =>
      simp only [Registry.register, changes, hlease, List.nil_append]
      exact watch?_announce_eq_some hstored _ _
    | some previous =>
      simp only [Registry.register, changes, hlease, Watch.hear_append]
      exact watch?_announce_eq_some (watch?_announce_eq_some hstored _ _) _ _
  gone hgone := by
    have hstored : ({ r with leases := r.leases.insert n.id ⟨n, now⟩ } : Registry).Gone watch :=
      ⟨hgone.watch?_eq, hgone.lt_opened⟩
    cases hlease : r.leases[n.id]? with
    | none =>
      simp only [Registry.register, hlease]
      exact hstored.announce _ _
    | some previous =>
      simp only [Registry.register, hlease]
      exact (hstored.announce _ _).announce _ _

/-- Refreshing a lease is not told to anyone. -/
theorem Keyed.announced_keepAlive (hr : r.Keyed) {now : Nat} {id : String}
    (h : r.keepAlive now id = .ok r') : Announced watch s r [] r' := by
  unfold keepAlive at h
  split at h
  next lease hlease =>
    obtain rfl := Except.ok.inj h
    refine announced_nil (fun other lease' h => ?_) (Roster.ext_get? fun other => ?_) (fun _ => rfl)
      (Nat.le_refl _)
    · rw [Std.ExtTreeMap.getElem?_insert] at h
      split at h
      next heq =>
        obtain rfl := Option.some.inj h
        exact (hr id lease hlease).trans (Std.LawfulEqOrd.eq_of_compare heq)
      next => exact hr other lease' h
    · rw [get?_roster, get?_roster, Std.ExtTreeMap.getElem?_insert]
      split
      next heq =>
        rw [← Std.LawfulEqOrd.eq_of_compare heq, hlease]
        rfl
      next => rfl
  next => cases h

/-- A mailbox of another watch is changed. -/
theorem Keyed.announced_setMailbox (hr : r.Keyed) {reader : Nat} (hne : reader ≠ watch)
    (m : Mailbox Change) : Announced watch s r [] (r.setMailbox reader m) :=
  announced_nil hr rfl (fun _ => watch?_setMailbox hne m) (Nat.le_refl _)

/-- What every operation does to a selection and to a watch on it that is not read or closed. -/
theorem Keyed.announced_perform (hr : r.Keyed) (op : Op) (hreader : op.reader? ≠ some watch) :
    Announced watch s r (r.changes s op) (r.perform op) := by
  cases op with
  | register now n => exact hr.announced_register now n
  | keepAlive now id =>
    simp only [perform, changes]
    cases h : r.keepAlive now id with
    | ok r' => exact hr.announced_keepAlive h
    | error e => exact hr.announced_refl
  | deregister id =>
    cases hlease : r.leases[id]? with
    | none =>
      simp only [perform, changes, Registry.deregister, hlease]
      exact hr.announced_refl
    | some lease =>
      simp only [perform, changes, Registry.deregister, hlease]
      exact hr.announced_forget hlease
  | expire now ttl => exact hr.announced_removeStale now ttl _
  | watch other => exact announced_nil hr rfl (watch?_watch_of_lt other) (Nat.le_succ _)
  | receive reader =>
    have hne : reader ≠ watch := fun heq => hreader (congrArg some heq)
    simp only [perform, changes, receive?]
    cases r.mailbox? reader with
    | none => exact hr.announced_refl
    | some m =>
      cases hreceive : m.receive? with
      | none => simpa [hreceive] using hr.announced_refl
      | some taken => simpa [hreceive] using hr.announced_setMailbox hne taken.2
  | drain reader =>
    have hne : reader ≠ watch := fun heq => hreader (congrArg some heq)
    simp only [perform, changes, drain?]
    cases r.mailbox? reader with
    | none => exact hr.announced_refl
    | some m =>
      by_cases hopen : m.isOpen
      · simpa [hopen] using hr.announced_setMailbox hne _
      · simpa [hopen] using hr.announced_refl
  | unwatch reader =>
    have hne : reader ≠ watch := fun heq => hreader (congrArg some heq)
    simp only [perform, changes, unwatch]
    split
    next => exact hr.announced_setMailbox hne _
    next => exact hr.announced_refl

theorem keyed_withWatchBuffer (watchBuffer : Nat) : (withWatchBuffer watchBuffer).Keyed := by
  intro id lease h
  simp [withWatchBuffer] at h

/-- Every operation keeps the leases under their identities. -/
theorem Keyed.perform (hr : r.Keyed) (op : Op) : (r.perform op).Keyed := by
  obtain ⟨watch, hreader⟩ : ∃ watch, op.reader? ≠ some watch := by
    cases op.reader? with
    | none => exact ⟨0, nofun⟩
    | some reader => exact ⟨reader + 1, fun h => Nat.succ_ne_self reader (Option.some.inj h).symm⟩
  exact (hr.announced_perform (s := default) op hreader).keyed

theorem Keyed.foldl_perform (hr : r.Keyed) (ops : List Op) :
    (ops.foldl Registry.perform r).Keyed := by
  induction ops generalizing r with
  | nil => exact hr
  | cons op rest ih => exact ih (hr.perform op)

/-- Only operations about nodes are announced. -/
theorem changes_eq_nil (r : Registry) (s : Selection) {op : Op} (h : op.isChange = false) :
    r.changes s op = [] := by
  cases op with
  | register | deregister | expire => cases h
  | keepAlive | watch | receive | drain | unwatch => rfl

/-! ## One watch -/

/-- The registry after an operation of someone else than the reader of a watch. What only the reader
could do does not happen. -/
def performBeside (r : Registry) (watch : Nat) (op : Op) : Registry :=
  if op.reader? = some watch then r else r.perform op

/-- The changes that a watch was told and that were not taken out of it yet. -/
def waiting (r : Registry) (watch : Nat) : List Change :=
  ((r.mailbox? watch).map (·.items)).getD []

/-- No change of a selection is lost by a watch on it while others do something to the registry. -/
def Lossless (watch : Nat) (s : Selection) : Registry → List Op → Prop
  | _, [] => True
  | r, op :: rest =>
    (r.performBeside watch op).waiting watch = r.waiting watch ++ r.changes s op ∧
      (r.performBeside watch op).Lossless watch s rest

instance decidableLossless (watch : Nat) (s : Selection) :
    (r : Registry) → (ops : List Op) → Decidable (r.Lossless watch s ops)
  | _, [] => isTrue trivial
  | r, op :: rest =>
    have := decidableLossless watch s (r.performBeside watch op) rest
    inferInstanceAs (Decidable (_ ∧ _))

/-- A selection is followed by that watch, as long as the watch is open. -/
structure Followed (watch : Nat) (s : Selection) (r : Registry) : Prop where
  keyed : r.Keyed
  lt_opened : watch < r.opened
  selection_eq : ∀ w, r.watch? watch = some w → w.selection = s

/-- What waits in a watch is what its mailbox holds. -/
theorem waiting_eq {w : Watch} (hw : r.watch? watch = some w) :
    r.waiting watch = w.mailbox.items := by
  rw [waiting, mailbox?, hw]
  rfl

/-- Nothing waits in a watch that is closed. -/
theorem waiting_eq_nil (hw : r.watch? watch = none) : r.waiting watch = [] := by
  rw [waiting, mailbox?, hw]
  rfl

/-- A watch is open or gone. -/
theorem Followed.open_or_gone (hr : r.Followed watch s) :
    (∃ w, r.watch? watch = some w ∧ w.selection = s) ∨ r.Gone watch := by
  cases hw : r.watch? watch with
  | some w => exact .inl ⟨w, rfl, hr.selection_eq w hw⟩
  | none => exact .inr ⟨hw, hr.lt_opened⟩

/-- A closed watch follows whatever it did. -/
theorem Gone.followed (h : r.Gone watch) (hr : r.Keyed) : r.Followed watch s :=
  ⟨hr, h.lt_opened, fun w hw => by
    rw [h.watch?_eq] at hw
    cases hw⟩

theorem Announced.followed (h : Announced watch s r cs r') (hr : r.Followed watch s) :
    r'.Followed watch s := by
  rcases hr.open_or_gone with ⟨w, hw, hselection⟩ | hgone
  · have hw' := h.watch?_of_some w hw hselection
    refine ⟨h.keyed, lt_opened_of_watch? hw', fun w' h' => ?_⟩
    rw [← Option.some.inj (hw'.symm.trans h')]
    exact hselection
  · exact (h.gone hgone).followed h.keyed

/-- A watch follows its selection whatever its reader does to its mailbox. -/
theorem Followed.setMailbox {w : Watch} (hr : r.Followed watch s) (hw : r.watch? watch = some w)
    (m : Mailbox Change) : (r.setMailbox watch m).Followed watch s where
  keyed := hr.keyed
  lt_opened := hr.lt_opened
  selection_eq w' hw' := by
    rw [watch?_setMailbox_self hw] at hw'
    rw [← Option.some.inj (Option.filter_eq_some_iff.mp hw').1]
    exact hr.selection_eq w hw

theorem Followed.unwatch (hr : r.Followed watch s) : (r.unwatch watch).Followed watch s := by
  unfold Registry.unwatch
  split
  next m hm =>
    obtain ⟨w, hw, -⟩ := Option.map_eq_some_iff.mp hm
    exact hr.setMailbox hw m.close
  next => exact hr

/-- A watch is opened on a selection. -/
theorem Keyed.followed_watch (hr : r.Keyed) (s : Selection) :
    (r.watch s).2.Followed (r.watch s).1 s where
  keyed := hr
  lt_opened := Nat.lt_succ_self _
  selection_eq w hw := by
    rw [← Option.some.inj ((r.watch?_watch s).symm.trans hw)]

/-- Nothing waits in a new watch. -/
theorem waiting_watch (r : Registry) (s : Selection) : (r.watch s).2.waiting (r.watch s).1 = [] :=
  waiting_eq (r.watch?_watch s)

/-- Whatever others do, a watch is told the changes of its selection. -/
theorem Keyed.announced_performBeside (hr : r.Keyed) (watch : Nat) (op : Op) :
    Announced watch s r (r.changes s op) (r.performBeside watch op) := by
  unfold performBeside
  split
  next hreader =>
    have hchange : op.isChange = false := by
      cases op with
      | register | keepAlive | deregister | expire | watch => cases hreader
      | receive | drain | unwatch => rfl
    rw [changes_eq_nil r s hchange]
    exact hr.announced_refl
  next hreader => exact hr.announced_perform op hreader

/-- A watch follows its selection whatever others do, by induction over that. -/
theorem Followed.foldl_performBeside (hr : r.Followed watch s) (ops : List Op) :
    (ops.foldl (·.performBeside watch ·) r).Followed watch s := by
  induction ops generalizing r with
  | nil => exact hr
  | cons op rest ih => exact ih ((hr.keyed.announced_performBeside watch op).followed hr)

/-- An operation that is not about nodes leaves what waits in a watch. -/
theorem Followed.waiting_performBeside (hr : r.Followed watch s) {op : Op}
    (hop : op.isChange = false) :
    (r.performBeside watch op).waiting watch = r.waiting watch := by
  have hannounced := hr.keyed.announced_performBeside (s := s) watch op
  rw [changes_eq_nil r s hop] at hannounced
  rcases hr.open_or_gone with ⟨w, hw, hselection⟩ | hgone
  · rw [waiting_eq hw, waiting_eq (hannounced.watch?_of_some w hw hselection)]
    rfl
  · rw [waiting_eq_nil hgone.watch?_eq, waiting_eq_nil (hannounced.gone hgone).watch?_eq]

/-- What waits in a watch that loses nothing says what is selected. -/
theorem Followed.foldl_waiting (hr : r.Followed watch s) {ops : List Op}
    (hkept : r.Lossless watch s ops)
    (hstable : (r.waiting watch).foldl Roster.apply (r.roster s) = r.roster s) :
    let r' := ops.foldl (·.performBeside watch ·) r
    (r'.waiting watch).foldl Roster.apply (r'.roster s) = r'.roster s := by
  induction ops generalizing r with
  | nil => exact hstable
  | cons op rest ih =>
    have hannounced := hr.keyed.announced_performBeside (s := s) watch op
    refine ih (hannounced.followed hr) hkept.2 ?_
    rw [hkept.1, hannounced.roster_eq]
    exact Roster.foldl_apply_append_eq_self hstable

end Registry

end RingRouting
