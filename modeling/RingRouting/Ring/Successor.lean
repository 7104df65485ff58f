import Std.Data.ExtTreeSet

/-!
# The next item of an ordered set

An ordered set finds the first item at or beyond a bound in one descent of its tree. Main
statements: `getGE?_eq_find?_toList` and `getGT?_eq_find?_toList`, that this is the item which a
search along the sorted list of all items meets first.
-/

namespace RingRouting.Ring

open Std Std.DTreeMap.Internal

variable {α : Type} [Ord α] [TransOrd α]

/-- Where the root is not beyond the bound, nothing to its left is at the bound or beyond. -/
theorem compare_left_eq_lt {k key : α} {size : Nat} {value : Unit} {l r : Impl α fun _ => Unit}
    (h : (Impl.inner size key value l r).Ordered) (hk : (compare k key).isGE) {a : α}
    (ha : a ∈ l.toListModel.map (·.1)) : compare a k = .lt := by
  obtain ⟨p, hp, rfl⟩ := List.mem_map.mp ha
  exact TransCmp.lt_of_lt_of_isLE (h.compare_left hp) (OrientedCmp.isGE_iff_isLE.mp hk)

theorem getKeyGE?_go_eq (k : α) (best : Option α) (t : Impl α fun _ => Unit) (h : t.Ordered) :
    Impl.getKeyGE?.go k best t =
      ((t.toListModel.map (·.1)).find? fun a => (compare a k).isGE).or best := by
  induction t generalizing best with
  | leaf => rfl
  | inner size key value l r ihl ihr =>
    have left (hk : (compare k key).isGE) :
        (l.toListModel.map (·.1)).find? (fun a => (compare a k).isGE) = none :=
      List.find?_eq_none.mpr fun a ha => by simp [compare_left_eq_lt h hk ha]
    rw [Impl.getKeyGE?.go, Impl.toListModel_inner, List.map_append, List.map_cons,
      List.find?_append, List.find?_cons]
    split
    next hk =>
      rw [ihl _ h.left, OrientedCmp.gt_of_lt hk]
      simp
    next hk =>
      rw [left (by simp [hk]), OrientedCmp.eq_symm hk]
      simp
    next hk =>
      rw [ihr _ h.right, left (by simp [hk]), OrientedCmp.lt_of_gt hk]
      simp

theorem getKeyGT?_go_eq (k : α) (best : Option α) (t : Impl α fun _ => Unit) (h : t.Ordered) :
    Impl.getKeyGT?.go k best t =
      ((t.toListModel.map (·.1)).find? fun a => (compare a k).isGT).or best := by
  induction t generalizing best with
  | leaf => rfl
  | inner size key value l r ihl ihr =>
    have left (hk : (compare k key).isGE) :
        (l.toListModel.map (·.1)).find? (fun a => (compare a k).isGT) = none :=
      List.find?_eq_none.mpr fun a ha => by simp [compare_left_eq_lt h hk ha]
    rw [Impl.getKeyGT?.go, Impl.toListModel_inner, List.map_append, List.map_cons,
      List.find?_append, List.find?_cons]
    cases hk : compare k key with
    | lt =>
      rw [ihl _ h.left, OrientedCmp.gt_of_lt hk]
      simp
    | eq =>
      rw [ihr _ h.right, left (by simp [hk]), OrientedCmp.eq_symm hk]
      simp
    | gt =>
      rw [ihr _ h.right, left (by simp [hk]), OrientedCmp.lt_of_gt hk]
      simp

/-- The first item at or beyond a bound is the first such item in the list of all items. -/
theorem getGE?_eq_find?_toList (s : ExtTreeSet α) (k : α) :
    s.getGE? k = s.toList.find? fun a => (compare a k).isGE := by
  obtain ⟨⟨inner⟩⟩ := s
  induction inner with
  | mk t =>
    show Impl.getKeyGE?.go k none t.inner = t.inner.keys.find? _
    rw [getKeyGE?_go_eq k none t.inner t.wf.ordered, Impl.keys_eq_keys,
      Std.Internal.List.keys_eq_map, Option.or_none]

/-- The first item beyond a bound is the first such item in the list of all items. -/
theorem getGT?_eq_find?_toList (s : ExtTreeSet α) (k : α) :
    s.getGT? k = s.toList.find? fun a => (compare a k).isGT := by
  obtain ⟨⟨inner⟩⟩ := s
  induction inner with
  | mk t =>
    show Impl.getKeyGT?.go k none t.inner = t.inner.keys.find? _
    rw [getKeyGT?_go_eq k none t.inner t.wf.ordered, Impl.keys_eq_keys,
      Std.Internal.List.keys_eq_map, Option.or_none]

end RingRouting.Ring
