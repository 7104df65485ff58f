import Mathlib.Data.List.Induction
import RingRouting.Proofs.TreeMap
import RingRouting.Roster

/-!
# Replaying changes on a roster

A change names nodes by their identities, so it overwrites what is known under these identities and
leaves all else alone. What a look-up finds after a number of changes is therefore what the last of
them says that says anything about the identity. Main statement: `get?_foldl_apply`.
-/

namespace RingRouting

/-- The last node of a list that has an identity. -/
def lastWithId? (nodes : List Node) (id : String) : Option Node :=
  nodes.reverse.find? (·.id == id)

/-- The last of a list counts before all others. -/
theorem lastWithId?_concat (nodes : List Node) (n : Node) (id : String) :
    lastWithId? (nodes ++ [n]) id = if n.id = id then some n else lastWithId? nodes id := by
  rw [lastWithId?, List.reverse_concat, List.find?_cons]
  by_cases h : n.id = id
  · rw [if_pos h, beq_iff_eq.mpr h]
  · rw [if_neg h, beq_false_of_ne h, lastWithId?]

/-- An identity that occurs has a last node. -/
theorem isSome_lastWithId? (nodes : List Node) (id : String) :
    (lastWithId? nodes id).isSome = nodes.any (·.id == id) := by
  rw [lastWithId?, List.isSome_find?, List.any_reverse]

/-- The last node of an identity has that identity. -/
theorem id_of_lastWithId? {nodes : List Node} {id : String} {n : Node}
    (h : lastWithId? nodes id = some n) :
    n.id = id := by
  simpa using List.find?_some h

namespace Change

/-- What a change says about an identity, if it says anything: the node that it has from then on, or
that it has none. -/
def says? (c : Change) (id : String) : Option (Option Node) :=
  match c.kind with
  | .add => (lastWithId? c.nodes id).map some
  | .remove => if c.nodes.any (·.id == id) then some none else none
  | .sync => some (lastWithId? c.nodes id)

/-- An added node says that its identity has it. -/
theorem says?_added (n : Node) (id : String) :
    (added n).says? id = if n.id = id then some (some n) else none := by
  by_cases h : n.id = id <;> simp [added, says?, lastWithId?, h]

/-- A removed node says that its identity has none. -/
theorem says?_removed (n : Node) (id : String) :
    (removed n).says? id = if n.id = id then some none else none := by
  by_cases h : n.id = id <;> simp [removed, says?, h]

end Change

/-- What the last of some changes says about an identity that says anything about it. -/
def lastWord? (id : String) : List Change → Option (Option Node)
  | [] => none
  | c :: rest => (lastWord? id rest).or (c.says? id)

/-- Later changes have the last word, if they say anything. -/
theorem lastWord?_append (id : String) (cs cs' : List Change) :
    lastWord? id (cs ++ cs') = (lastWord? id cs').or (lastWord? id cs) := by
  induction cs with
  | nil => exact (Option.or_none).symm
  | cons c rest ih => rw [List.cons_append, lastWord?, ih, Option.or_assoc, ← lastWord?]

namespace Roster

/-- Each node is kept under its identity. -/
def Keyed (r : Roster) : Prop :=
  ∀ id n, r.get? id = some n → n.id = id

/-- Rosters are the same if each identity has the same node in them. -/
theorem ext_get? {r r' : Roster} (h : ∀ id, r.get? id = r'.get? id) : r = r' := by
  obtain ⟨nodes⟩ := r
  obtain ⟨nodes'⟩ := r'
  exact congrArg _ (Std.ExtTreeMap.ext_getElem? h)

/-- A node is found under its identity once it is put in. -/
theorem get?_insert (r : Roster) (n : Node) (id : String) :
    (r.insert n).get? id = if n.id = id then some n else r.get? id := by
  simp [insert, get?, Std.ExtTreeMap.getElem?_insert]

/-- Nothing is found under its identity once it is taken out. -/
theorem get?_erase (r : Roster) (n : Node) (id : String) :
    (r.erase n).get? id = if n.id = id then none else r.get? id := by
  simp [erase, get?, Std.ExtTreeMap.getElem?_erase]

/-- Of nodes that are put in one after the other, the last of an identity stays. -/
theorem get?_foldl_insert (nodes : List Node) (r : Roster) (id : String) :
    (nodes.foldl insert r).get? id = (lastWithId? nodes id).or (r.get? id) := by
  -- the last node counts, so the induction is on the end of the list
  induction nodes using List.reverseRecOn with
  | nil => rfl
  | append_singleton nodes n ih =>
    rw [List.foldl_append, List.foldl_cons, List.foldl_nil, get?_insert, lastWithId?_concat, ih]
    split <;> rfl

/-- Of nodes that are taken out, none of their identities stays. -/
theorem get?_foldl_erase (nodes : List Node) (r : Roster) (id : String) :
    (nodes.foldl erase r).get? id = if nodes.any (·.id == id) then none else r.get? id := by
  induction nodes generalizing r with
  | nil => rfl
  | cons n rest ih =>
    rw [List.foldl_cons, ih, get?_erase, List.any_cons]
    by_cases h : n.id = id <;> simp [h]

/-- A roster of a list has the last node of each identity. -/
theorem get?_ofList (nodes : List Node) (id : String) :
    (ofList nodes).get? id = lastWithId? nodes id := by
  rw [ofList, get?_foldl_insert, get?, Std.ExtTreeMap.getElem?_empty, Option.or_none]

/-- A change overwrites what it says something about. -/
theorem get?_apply (r : Roster) (c : Change) (id : String) :
    (r.apply c).get? id = (c.says? id).getD (r.get? id) := by
  obtain ⟨kind, nodes⟩ := c
  cases kind with
  | add =>
    rw [apply, get?_foldl_insert, Change.says?]
    cases lastWithId? nodes id <;> rfl
  | remove =>
    rw [apply, get?_foldl_erase, Change.says?]
    split <;> rfl
  | sync => rw [apply, get?_ofList, Change.says?, Option.getD_some]

/-- After a number of changes, the last word on an identity counts. -/
theorem get?_foldl_apply (cs : List Change) (r : Roster) (id : String) :
    (cs.foldl apply r).get? id = (lastWord? id cs).getD (r.get? id) := by
  induction cs generalizing r with
  | nil => rfl
  | cons c rest ih =>
    rw [List.foldl_cons, ih, get?_apply, lastWord?]
    cases lastWord? id rest <;> rfl

/-! ## Changes that change nothing -/

/-- Replaying changes changes nothing exactly if the last word on each identity is what is known. -/
theorem foldl_apply_eq_self_iff {cs : List Change} {r : Roster} :
    cs.foldl apply r = r ↔ ∀ id known, lastWord? id cs = some known → r.get? id = known := by
  constructor
  · intro h id known hknown
    rw [← h, get?_foldl_apply, hknown, Option.getD_some]
  · intro h
    refine ext_get? fun id => ?_
    rw [get?_foldl_apply]
    cases hknown : lastWord? id cs with
    | none => rfl
    | some known => exact (h id known hknown).symm

/-- If changes come to nothing together, then so do the last ones of them. -/
theorem foldl_apply_eq_self_of_suffix {cs cs' : List Change} {r : Roster} (hsuffix : cs' <:+ cs)
    (h : cs.foldl apply r = r) : cs'.foldl apply r = r := by
  obtain ⟨front, rfl⟩ := hsuffix
  rw [foldl_apply_eq_self_iff] at h ⊢
  intro id known hknown
  refine h id known ?_
  rw [lastWord?_append, hknown, Option.some_or]

/-- Older changes that changed nothing still change nothing when they are replayed on newer nodes
and the newer changes after them. -/
theorem foldl_apply_append_eq_self {cs cs' : List Change} {r : Roster} (h : cs.foldl apply r = r) :
    (cs ++ cs').foldl apply (cs'.foldl apply r) = cs'.foldl apply r := by
  rw [foldl_apply_eq_self_iff] at h ⊢
  intro id known hknown
  rw [lastWord?_append] at hknown
  rw [get?_foldl_apply]
  cases hnewer : lastWord? id cs' with
  | none =>
    rw [hnewer, Option.none_or] at hknown
    exact h id known hknown
  | some newer =>
    rw [hnewer, Option.some_or] at hknown
    exact Option.some.inj hknown

/-! ## Keys -/

theorem keyed_empty : Keyed {} := by
  intro id n h
  simp [get?] at h

theorem Keyed.insert {r : Roster} (hr : r.Keyed) (n : Node) : (r.insert n).Keyed := by
  intro id m hm
  rw [get?_insert] at hm
  split at hm
  next h => rw [← Option.some.inj hm, h]
  next => exact hr id m hm

theorem Keyed.erase {r : Roster} (hr : r.Keyed) (n : Node) : (r.erase n).Keyed := by
  intro id m hm
  rw [get?_erase] at hm
  split at hm
  next => cases hm
  next => exact hr id m hm

theorem Keyed.foldl_insert (nodes : List Node) {r : Roster} (hr : r.Keyed) :
    (nodes.foldl Roster.insert r).Keyed := by
  induction nodes generalizing r with
  | nil => exact hr
  | cons n rest ih => exact ih (hr.insert n)

theorem Keyed.foldl_erase (nodes : List Node) {r : Roster} (hr : r.Keyed) :
    (nodes.foldl Roster.erase r).Keyed := by
  induction nodes generalizing r with
  | nil => exact hr
  | cons n rest ih => exact ih (hr.erase n)

theorem keyed_ofList (nodes : List Node) : (ofList nodes).Keyed :=
  keyed_empty.foldl_insert nodes

/-- Every change keeps nodes under their identities. -/
theorem Keyed.apply {r : Roster} (hr : r.Keyed) (c : Change) : (r.apply c).Keyed := by
  unfold Roster.apply
  split
  next => exact hr.foldl_insert c.nodes
  next => exact hr.foldl_erase c.nodes
  next => exact keyed_ofList c.nodes

theorem Keyed.foldl_apply (cs : List Change) {r : Roster} (hr : r.Keyed) :
    (cs.foldl Roster.apply r).Keyed := by
  induction cs generalizing r with
  | nil => exact hr
  | cons c rest ih => exact ih (hr.apply c)

/-- Listed are the nodes that are kept. -/
theorem Keyed.mem_toList_iff {r : Roster} (hr : r.Keyed) {n : Node} :
    n ∈ r.toList ↔ r.get? n.id = some n := by
  rw [toList, TreeMap.mem_values]
  constructor
  · intro hcase
    obtain ⟨id, hn⟩ := hcase
    exact hr id n hn ▸ hn
  · exact fun hn => ⟨n.id, hn⟩

/-- The nodes of a roster are listed in the order of their identities. -/
theorem Keyed.pairwise_toList {r : Roster} (hr : r.Keyed) : r.toList.Pairwise (·.id < ·.id) := by
  rw [toList, TreeMap.values_eq_map_toList, List.pairwise_map]
  refine (Std.ExtTreeMap.ordered_keys_toList (t := r.nodes)).imp_of_mem fun {a b} ha hb h => ?_
  have hid (entry : String × Node) (hentry : entry ∈ r.nodes.toList) : entry.2.id = entry.1 :=
    hr entry.1 entry.2 (Std.ExtTreeMap.mem_toList_iff_getElem?_eq_some.mp hentry)
  rw [hid a ha, hid b hb]
  exact compareOfLessAndEq_eq_lt.mp h

/-- Listing the nodes of a roster loses nothing. -/
theorem Keyed.ofList_toList {r : Roster} (hr : r.Keyed) : ofList r.toList = r := by
  refine ext_get? fun id => ?_
  rw [get?_ofList]
  cases hlast : lastWithId? r.toList id with
  | none =>
    refine (Option.eq_none_iff_forall_ne_some.mpr fun n hn => ?_).symm
    have hid := hr id n hn
    have hmem : n ∈ r.toList := hr.mem_toList_iff.mpr (hid ▸ hn)
    have hnone := List.find?_eq_none.mp hlast n (List.mem_reverse.mpr hmem)
    simp [hid] at hnone
  | some n =>
    have hmem := hr.mem_toList_iff.mp (List.mem_reverse.mp (List.mem_of_find?_eq_some hlast))
    have hid : n.id = id := by simpa using List.find?_some hlast
    exact (hid ▸ hmem).symm

/-- A roster that is keyed can be told from its list. -/
theorem Keyed.eq_of_toList_eq {r r' : Roster} (hr : r.Keyed) (hr' : r'.Keyed)
    (h : r.toList = r'.toList) : r = r' := by
  rw [← hr.ofList_toList, h, hr'.ofList_toList]

end Roster

end RingRouting
