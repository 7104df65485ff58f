import Std.Data.ExtTreeMap

/-!
# The values of an ordered map

An ordered map lists its values in the order of their keys. Main statements: `mem_values`, that
these are the values that a look-up finds, and `count_values_insert` and `count_values_erase`, what
one change of the map does to the number of times that a value occurs.
-/

namespace RingRouting.TreeMap

open Std

variable {α β : Type} [Ord α] [TransOrd α]

theorem values_eq_map_toList (m : ExtTreeMap α β) : m.values = m.toList.map (·.2) := by
  obtain ⟨⟨inner⟩⟩ := m
  induction inner using Quotient.ind with
  | _ t =>
    show t.inner.values = (DTreeMap.Internal.Impl.Const.toList t.inner).map _
    rw [DTreeMap.Internal.Impl.values_eq_map_snd,
      DTreeMap.Internal.Impl.Const.toList_eq_toListModel_map, List.map_map]
    rfl

/-- How often a value occurs is the size of the part of the map that has this value. -/
theorem count_values [DecidableEq β] (m : ExtTreeMap α β) (x : β) :
    m.values.count x = (m.filter fun _ v => v = x).size := by
  rw [values_eq_map_toList, ← ExtTreeMap.length_toList, ExtTreeMap.toList_filter, List.count,
    List.countP_map, List.countP_eq_length_filter]
  rfl

theorem exists_mem_of_ne_empty {m : ExtTreeMap α β} (h : m ≠ ∅) : ∃ k, k ∈ m := by
  refine Classical.byContradiction fun hnone => h ?_
  exact ExtTreeMap.eq_empty_iff_forall_not_mem.mpr fun k hk => hnone ⟨k, hk⟩

variable [LawfulEqOrd α]

/-- A value is one under some key. -/
theorem mem_values {m : ExtTreeMap α β} {v : β} : v ∈ m.values ↔ ∃ k : α, m[k]? = some v := by
  rw [values_eq_map_toList]
  simp

/-- It does not matter whether a key is taken out before or after a filter. -/
theorem filter_erase (m : ExtTreeMap α β) (k : α) (f : α → β → Bool) :
    (m.erase k).filter f = (m.filter f).erase k := by
  refine ExtTreeMap.ext_getElem? fun a => ?_
  by_cases h : k = a
  · subst h
    simp
  · simp [ExtTreeMap.getElem?_erase, h]

variable [DecidableEq β]

/-- Taking a key out lowers the count of the value that it had. -/
theorem count_values_erase (m : ExtTreeMap α β) (k : α) (x : β) :
    (m.erase k).values.count x + (if m[k]? = some x then 1 else 0) = m.values.count x := by
  have hmem : (m.filter fun _ v => v = x).contains k ↔ m[k]? = some x := by
    rw [ExtTreeMap.contains_eq_isSome_getElem?, ExtTreeMap.getElem?_filter']
    cases m[k]? <;> simp [Option.filter]
  rw [count_values, count_values, filter_erase, ExtTreeMap.size_erase]
  by_cases h : m[k]? = some x
  · have hpos : (m.filter fun _ v => v = x).size ≠ 0 := by
      intro h0
      rw [← ExtTreeMap.eq_empty_iff_size_eq_zero] at h0
      exact absurd (hmem.mpr h) (by simp [h0])
    rw [if_pos (hmem.mpr h), if_pos h]
    omega
  · rw [if_neg fun hk => h (hmem.mp hk), if_neg h, Nat.add_zero]

/-- Putting a value under a key raises its count and lowers that of the value it replaces. -/
theorem count_values_insert (m : ExtTreeMap α β) (k : α) (v x : β) :
    (m.insert k v).values.count x + (if m[k]? = some x then 1 else 0) =
      m.values.count x + (if v = x then 1 else 0) := by
  have herase := count_values_erase (m.insert k v) k x
  simp only [ExtTreeMap.getElem?_insert_self, Option.some.injEq] at herase
  have hsame : (m.insert k v).erase k = m.erase k := by
    refine ExtTreeMap.ext_getElem? fun a => ?_
    by_cases h : k = a
    · simp [h]
    · simp [ExtTreeMap.getElem?_erase, ExtTreeMap.getElem?_insert, h]
  have hold := count_values_erase m k x
  rw [hsame] at herase
  omega

/-- A key that is taken out takes its value along, and nothing else. -/
theorem perm_values_erase {m : ExtTreeMap α β} {k : α} {v : β} (h : m[k]? = some v) :
    m.values.Perm (v :: (m.erase k).values) := by
  refine List.perm_iff_count.mpr fun x => ?_
  rw [List.count_cons, ← count_values_erase m k x, h]
  simp

/-- A new key brings its value, and nothing else. -/
theorem perm_values_insert {m : ExtTreeMap α β} {k : α} (h : m[k]? = none) (v : β) :
    (m.insert k v).values.Perm (v :: m.values) := by
  refine List.perm_iff_count.mpr fun x => ?_
  have hcount := count_values_insert m k v x
  rw [h] at hcount
  simpa [List.count_cons] using hcount

end RingRouting.TreeMap
