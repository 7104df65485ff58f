import RingRouting.Proofs.Replay

/-!
# Rosters as registers

A roster keeps one register for each identity. A change writes the registers of the identities that
it names, and a full list writes all of them; the list that a roster begins with counts as a full
list. What a register holds is then what the latest change that decides it wrote: the last node of
that identity, or nothing. Main statement: `foldl_apply_ofList_registers`, with the laws of
overwriting, exchange and restoring that follow from it.
-/

namespace RingRouting

/-- A change decides what is known under an identity: it names the identity, or it is a full
list. -/
def Change.Decides (c : Change) (id : String) : Prop :=
  c.kind = .sync ∨ ∃ n ∈ c.nodes, n.id = id

/-- The node is in the list, and no node after it has its identity. -/
def IsLastIn (nodes : List Node) (n : Node) : Prop :=
  ∃ front back, nodes = front ++ n :: back ∧ ∀ m ∈ back, m.id ≠ n.id

variable {c c' : Change} {cs : List Change} {id : String} {nodes : List Node} {n : Node}

/-- The last node of an identity is the last one in its list. -/
theorem isLastIn_of_lastWithId? (h : lastWithId? nodes id = some n) : IsLastIn nodes n := by
  have hid := id_of_lastWithId? h
  rw [lastWithId?, List.find?_eq_some_iff_append] at h
  obtain ⟨-, back, front, hnodes, hback⟩ := h
  refine ⟨front.reverse, back.reverse, ?_, fun m hm => ?_⟩
  · simpa using congrArg List.reverse hnodes
  · have hother := hback m (List.mem_reverse.mp hm)
    rw [hid]
    simpa using hother

theorem lastWithId?_eq_none_iff : lastWithId? nodes id = none ↔ ∀ n ∈ nodes, n.id ≠ id := by
  rw [← Option.isNone_iff_eq_none, ← Option.not_isSome, isSome_lastWithId?]
  simp

/-! ## The change that decides -/

/-- A change that does not decide about an identity says nothing about it. -/
theorem Change.says?_eq_none_iff : c.says? id = none ↔ ¬ c.Decides id := by
  obtain ⟨kind, nodes⟩ := c
  cases kind with
  | add => simp [says?, Decides, lastWithId?_eq_none_iff]
  | remove => simp [says?, Decides]
  | sync => simp [says?, Decides]

theorem Change.decides_of_says? {known : Option Node} (h : c.says? id = some known) :
    c.Decides id := by
  refine Classical.byContradiction fun hnot => ?_
  rw [says?_eq_none_iff.mpr hnot] at h
  cases h

/-- A change that is no full list says nothing about an identity that it does not name. -/
theorem Change.says?_eq_none_of_forall (hkind : c.kind ≠ .sync)
    (hnodes : ∀ n ∈ c.nodes, n.id ≠ id) :
    c.says? id = none := by
  refine says?_eq_none_iff.mpr fun hdecides => ?_
  rcases hdecides with hsync | ⟨n, hn, hid⟩
  · exact hkind hsync
  · exact hnodes n hn hid

/-- What a change that decides makes known is a node that it names, unless it is a removal. -/
theorem Change.exists_of_says? {known : Option Node} (h : c.says? id = some known) :
    (known.isSome ↔ c.kind ≠ .remove ∧ ∃ n ∈ c.nodes, n.id = id) ∧
      ∀ n, known = some n → IsLastIn c.nodes n := by
  obtain ⟨kind, nodes⟩ := c
  cases kind with
  | add =>
    obtain ⟨n, hn, rfl⟩ := Option.map_eq_some_iff.mp h
    have hnamed : nodes.any (·.id == id) = true := by rw [← isSome_lastWithId?, hn]; rfl
    refine ⟨?_, fun m hm => Option.some.inj hm ▸ isLastIn_of_lastWithId? hn⟩
    simpa using hnamed
  | remove =>
    simp only [says?] at h
    split at h
    next =>
      obtain rfl := Option.some.inj h
      exact ⟨by simp, fun n hn => absurd hn.symm (Option.some_ne_none n)⟩
    next => cases h
  | sync =>
    obtain rfl : lastWithId? nodes id = known := Option.some.inj h
    refine ⟨?_, fun m hm => isLastIn_of_lastWithId? hm⟩
    rw [isSome_lastWithId?]
    simp

/-- The last word is that of the latest change that decides. -/
theorem exists_of_lastWord? {known : Option Node} (h : lastWord? id cs = some known) :
    ∃ c before after, cs = before ++ c :: after ∧ c.says? id = some known ∧
      ∀ later ∈ after, ¬ later.Decides id := by
  induction cs with
  | nil => cases h
  | cons first rest ih =>
    rw [lastWord?] at h
    cases hrest : lastWord? id rest with
    | some later =>
      rw [hrest, Option.some_or] at h
      obtain ⟨c, before, after, rfl, hword, hlast⟩ := ih (hrest.trans h)
      exact ⟨c, first :: before, after, rfl, hword, hlast⟩
    | none =>
      rw [hrest, Option.none_or] at h
      refine ⟨first, [], rest, rfl, h, fun later hlater hdecides => ?_⟩
      -- a change behind the first one that decided would have the last word
      obtain ⟨front, back, rfl⟩ := List.append_of_mem hlater
      rw [lastWord?_append, Option.or_eq_none_iff, lastWord?, Option.or_eq_none_iff] at hrest
      exact Change.says?_eq_none_iff.mp hrest.1.2 hdecides

namespace Roster

variable {r : Roster}

/-! ## Laws of changes -/

/-- Changes that name no identity in common can change places. -/
theorem apply_comm (r : Roster) (hkind : c.kind ≠ .sync) (hkind' : c'.kind ≠ .sync)
    (hdisjoint : ∀ n ∈ c.nodes, ∀ n' ∈ c'.nodes, n.id ≠ n'.id) :
    (r.apply c).apply c' = (r.apply c').apply c := by
  refine ext_get? fun id => ?_
  simp only [get?_apply]
  cases hword : c.says? id with
  | none => rfl
  | some known =>
    obtain ⟨n, hn, hid⟩ := (Change.decides_of_says? hword).resolve_left hkind
    have hother : c'.says? id = none :=
      Change.says?_eq_none_of_forall hkind' fun n' hn' heq =>
      hdisjoint n hn n' hn' (hid.trans heq.symm)
    rw [hother]
    rfl

/-- Nodes that were not known are added and taken out again. -/
theorem apply_remove_apply_add (r : Roster) (hfresh : ∀ n ∈ nodes, r.get? n.id = none) :
    (r.apply ⟨.add, nodes⟩).apply ⟨.remove, nodes⟩ = r := by
  refine ext_get? fun id => ?_
  rw [get?_apply, get?_apply]
  by_cases hnamed : ∃ n ∈ nodes, n.id = id
  · obtain ⟨n, hn, rfl⟩ := hnamed
    have hnamed : nodes.any (·.id == n.id) = true :=
      List.any_eq_true.mpr ⟨n, hn, beq_iff_eq.mpr rfl⟩
    have hword : (Change.mk .remove nodes).says? n.id = some none := if_pos hnamed
    rw [hword, Option.getD_some, hfresh n hn]
  · have hnot : ∀ n ∈ nodes, n.id ≠ id := fun n hn hid => hnamed ⟨n, hn, hid⟩
    rw [Change.says?_eq_none_of_forall (by simp) hnot,
      Change.says?_eq_none_of_forall (by simp) hnot]
    rfl

/-- After a full list nothing from before counts. -/
theorem foldl_apply_sync (r r' : Roster) (cs cs' later : List Change) (nodes : List Node) :
    (cs ++ ⟨.sync, nodes⟩ :: later).foldl apply r =
      (cs' ++ ⟨.sync, nodes⟩ :: later).foldl apply r' := by
  rw [List.foldl_append, List.foldl_append]
  rfl

theorem Keyed.get?_eq_some_iff (hr : r.Keyed) : r.get? id = some n ↔ n ∈ r.toList ∧ n.id = id := by
  rw [hr.mem_toList_iff]
  constructor
  · intro h
    have hid := hr id n h
    exact ⟨hid ▸ h, hid⟩
  · rintro ⟨h, rfl⟩
    exact h

/-! ## Registers -/

/-- What is known under an identity comes from the latest change that decides it. -/
theorem exists_decides (initial : List Node) (cs : List Change) (id : String) :
    ∃ c before after, ⟨.sync, initial⟩ :: cs = before ++ c :: after ∧
      c.says? id = some ((cs.foldl apply (ofList initial)).get? id) ∧
      ∀ later ∈ after, ¬ later.Decides id := by
  refine exists_of_lastWord? ?_
  rw [get?_foldl_apply, get?_ofList, lastWord?]
  cases lastWord? id cs <;> rfl

/-- After any changes the nodes are listed in the strict order of their identities. An identity is
known exactly if the latest change that decides it, the list at the start being the first one, is no
removal and names it, and it then stands for the last node of that identity in that change. So a
full list leaves nothing of what was before, changes that name no identity in common can change
places, and nodes that were not known are added and taken out again without a trace. -/
theorem foldl_apply_ofList_registers (initial : List Node) (cs : List Change) :
    let r := cs.foldl apply (ofList initial)
    r.toList.Pairwise (·.id < ·.id) ∧
    (∀ id, (∀ n, r.get? id = some n ↔ n ∈ r.toList ∧ n.id = id) ∧
      ∃ c before after, ⟨.sync, initial⟩ :: cs = before ++ c :: after ∧
        c.Decides id ∧ (∀ later ∈ after, ¬ later.Decides id) ∧
        ((∃ n ∈ r.toList, n.id = id) ↔ c.kind ≠ .remove ∧ ∃ n ∈ c.nodes, n.id = id) ∧
        ∀ n ∈ r.toList, n.id = id → IsLastIn c.nodes n) ∧
    (∀ before nodes later, cs = before ++ ⟨.sync, nodes⟩ :: later → ∀ initial' before',
      (before' ++ ⟨.sync, nodes⟩ :: later).foldl apply (ofList initial') = r) ∧
    (∀ before c c' later, cs = before ++ c :: c' :: later → c.kind ≠ .sync → c'.kind ≠ .sync →
      (∀ n ∈ c.nodes, ∀ n' ∈ c'.nodes, n.id ≠ n'.id) →
      (before ++ c' :: c :: later).foldl apply (ofList initial) = r) ∧
    ∀ nodes, (∀ n ∈ nodes, ∀ known ∈ r.toList, known.id ≠ n.id) →
      (r.apply ⟨.add, nodes⟩).apply ⟨.remove, nodes⟩ = r := by
  intro r
  have hr : r.Keyed := (keyed_ofList initial).foldl_apply cs
  refine ⟨hr.pairwise_toList, fun id => ⟨fun n => hr.get?_eq_some_iff, ?_⟩, ?_, ?_,
    fun nodes hnodes => ?_⟩
  · obtain ⟨c, before, after, hcs, hword, hlast⟩ := exists_decides initial cs id
    obtain ⟨hsome, hlastIn⟩ := Change.exists_of_says? hword
    refine ⟨c, before, after, hcs, Change.decides_of_says? hword, hlast, ?_, fun n hn hid => ?_⟩
    · rw [← hsome, Option.isSome_iff_exists]
      exact exists_congr fun n => hr.get?_eq_some_iff.symm
    · exact hlastIn n (hr.get?_eq_some_iff.mpr ⟨hn, hid⟩)
  · rintro before nodes later rfl initial' before'
    exact foldl_apply_sync _ _ before' before later nodes
  · rintro before c c' later rfl hkind hkind' hdisjoint
    simp only [r, List.foldl_append, List.foldl_cons]
    rw [apply_comm _ hkind hkind' hdisjoint]
  · refine r.apply_remove_apply_add fun n hn => ?_
    refine Option.eq_none_iff_forall_ne_some.mpr fun known hknown => ?_
    obtain ⟨hmem, hid⟩ := hr.get?_eq_some_iff.mp hknown
    exact hnodes n hn known hmem hid

/-- A change names an identity twice, a full list comes between, and two changes about other
identities change places behind it. -/
theorem foldl_apply_ofList_overwritten :
    let node (id : String) (port : UInt16) : Node :=
      { id, service := "s", protocol := .grpc, host := "h", port }
    let initial := [node "a" 1, node "b" 2, node "a" 3]
    let add : Change := ⟨.add, [node "b" 4, node "c" 5, node "b" 6]⟩
    let sync : Change := ⟨.sync, [node "c" 7, node "a" 8, node "c" 9]⟩
    let joined : Change := ⟨.add, [node "d" 10]⟩
    let left : Change := ⟨.remove, [node "a" 0, node "e" 0]⟩
    let r := [add, sync, joined, left].foldl apply (ofList initial)
    r.toList = [node "c" 9, node "d" 10] ∧
      [sync, joined, left].foldl apply (ofList []) = r ∧
      [add, sync, left, joined].foldl apply (ofList initial) = r ∧
      (r.apply ⟨.add, [node "a" 11]⟩).apply ⟨.remove, [node "a" 11]⟩ = r := by
  intro node initial add sync joined left r
  obtain ⟨-, -, hsync, hcomm, hrestore⟩ :=
    foldl_apply_ofList_registers initial [add, sync, joined, left]
  refine ⟨by decide, ?_, ?_, ?_⟩
  · exact hsync [add] _ [joined, left] rfl [] []
  · exact hcomm [add, sync] joined left [] rfl (by decide) (by decide) (by decide)
  · exact hrestore [node "a" 11] (by decide)

end Roster

end RingRouting
