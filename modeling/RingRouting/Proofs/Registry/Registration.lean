import Mathlib.Data.List.Nodup
import RingRouting.Proofs.Registry.Announcements

/-!
# Registering a list of nodes

A list of nodes may name an identity more than once. Registered one after the other, the last node
of each identity stays, and what is said of the identity before does not count, also where it is of
another service. Main statement: `perm_select_registered`.
-/

namespace RingRouting

/-- The last node of each identity. -/
def survivors : List Node → List Node
  | [] => []
  | n :: rest => if rest.any (·.id == n.id) then survivors rest else n :: survivors rest

/-- The first of a list counts only if no later node has its identity. -/
theorem lastWithId?_cons (n : Node) (rest : List Node) (id : String) : lastWithId? (n :: rest) id =
    (lastWithId? rest id).or (if n.id = id then some n else none) := by
  rw [lastWithId?, List.reverse_cons, List.find?_append, ← lastWithId?]
  by_cases h : n.id = id <;> simp [h]

/-- A node survives if it is the last one of its identity. -/
theorem mem_survivors {nodes : List Node} {n : Node} :
    n ∈ survivors nodes ↔ lastWithId? nodes n.id = some n := by
  induction nodes with
  | nil => simp [survivors, lastWithId?]
  | cons first rest ih =>
    rw [survivors, lastWithId?_cons, ← isSome_lastWithId?]
    split
    next hlater =>
      -- a later node of its identity hides the first one
      rw [ih]
      cases hlast : lastWithId? rest n.id with
      | some m => rw [Option.some_or]
      | none =>
        have hother : first.id ≠ n.id := fun hid => by simp [hid, hlast] at hlater
        rw [Option.none_or, if_neg hother]
    next hfresh =>
      rw [List.mem_cons, ih]
      cases hlast : lastWithId? rest n.id with
      | some m =>
        have hother : n ≠ first := fun hsame => hfresh (by rw [← hsame, hlast]; rfl)
        rw [Option.some_or, or_iff_right hother]
      | none =>
        rw [Option.none_or, or_iff_left (Option.some_ne_none n).symm]
        constructor
        · exact fun hsame => hsame ▸ if_pos rfl
        · intro hfirst
          split at hfirst
          next => exact (Option.some.inj hfirst).symm
          next => cases hfirst

theorem mem_of_mem_survivors {nodes : List Node} {n : Node} (h : n ∈ survivors nodes) : n ∈ nodes :=
  List.mem_reverse.mp (List.mem_of_find?_eq_some (mem_survivors.mp h))

/-- No two survivors have the same identity. -/
theorem nodup_map_id_survivors (nodes : List Node) : ((survivors nodes).map (·.id)).Nodup := by
  induction nodes with
  | nil => exact List.nodup_nil
  | cons n rest ih =>
    rw [survivors]
    split
    next => exact ih
    next hfresh =>
      refine List.nodup_cons.mpr ⟨fun hmem => ?_, ih⟩
      obtain ⟨n', hn', hid⟩ : ∃ n' ∈ survivors rest, n'.id = n.id := List.mem_map.mp hmem
      refine hfresh ?_
      rw [← isSome_lastWithId?, ← hid, mem_survivors.mp hn']
      rfl

namespace Registry

/-- A registry in which nodes were registered one after the other. -/
def registered (nodes : List Node) : Registry :=
  nodes.foldl (fun r n => r.register 0 n) {}

/-- Registered under an identity is the last node that has it. -/
theorem map_node_leases_registered (nodes : List Node) (id : String) :
    (registered nodes).leases[id]?.map (·.node) = lastWithId? nodes id := by
  induction nodes using List.reverseRecOn with
  | nil => rfl
  | append_singleton nodes n ih =>
    rw [lastWithId?_concat, ← ih, registered, List.foldl_append, List.foldl_cons, List.foldl_nil,
      ← registered, leases_register, Std.ExtTreeMap.getElem?_insert]
    simp only [Std.LawfulEqOrd.compare_eq_iff_eq]
    split <;> rfl

/-- Nodes are registered under their identities. -/
theorem keyed_registered (nodes : List Node) : (registered nodes).Keyed := by
  intro id lease h
  have hlast := map_node_leases_registered nodes id
  rw [h] at hlast
  exact id_of_lastWithId? hlast.symm

/-- Selected are the survivors that are wanted. -/
theorem mem_select_registered {nodes : List Node} {s : Selection} {n : Node} :
    n ∈ (registered nodes).select s ↔ n ∈ (survivors nodes).filter s.wants := by
  rw [← toList_roster, ((keyed_registered nodes).keyed_roster s).mem_toList_iff, get?_roster,
    map_node_leases_registered, Option.filter_eq_some_iff, List.mem_filter, mem_survivors]

/-- The nodes of a selection, in some order. -/
theorem perm_select_registered (nodes : List Node) (s : Selection) :
    ((registered nodes).select s).Perm ((survivors nodes).filter s.wants) := by
  have hselect : ((registered nodes).select s).Nodup := by
    rw [← toList_roster]
    refine ((keyed_registered nodes).keyed_roster s).pairwise_toList.imp fun hlt heq => ?_
    exact String.lt_irrefl _ (heq ▸ hlt)
  have hsurvivors : (survivors nodes).Nodup := List.Nodup.of_map _ (nodup_map_id_survivors nodes)
  exact (List.perm_ext_iff_of_nodup hselect (hsurvivors.filter _)).mpr fun _ =>
    mem_select_registered

end Registry

end RingRouting
