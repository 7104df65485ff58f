import Mathlib.Data.List.Nodup
import RingRouting.Proofs.Ring.Churn

/-!
# Rings over members of different kinds

Where members stand on a ring depends on their keys alone. So two rings whose members look alike,
key by key, give owners that look alike, in the same order, whatever the members are otherwise and
however each ring came to be. Main statement: `Alike.map_ownersOf_eq`.
-/

namespace RingRouting.Ring

variable {μ ν α : Type} {f : μ → α} {g : ν → α} {r : Ring μ} {r' : Ring ν}

/-- The rings place members alike, and those under one key look alike. -/
structure Alike (f : μ → α) (g : ν → α) (r : Ring μ) (r' : Ring ν) : Prop where
  partitioner_eq : r'.partitioner = r.partitioner
  factor_eq : r'.factor = r.factor
  get?_eq : ∀ key, (r'.get? key).map g = (r.get? key).map f

theorem Alike.contains_eq (h : Alike f g r r') (key : String) :
    r'.contains key = r.contains key := by
  have hsome := congrArg Option.isSome (h.get?_eq key)
  rwa [Option.isSome_map, Option.isSome_map, ← contains_eq_isSome, ← contains_eq_isSome] at hsome

variable [Member μ] [Member ν]

/-- The order of preference is one of keys. -/
theorem Alike.map_key_preference_eq (h : Alike f g r r') (hr : r.Sound) (hr' : r'.Sound)
    (t : Token) :
    (r'.preference t).map Member.key = (r.preference t).map Member.key := by
  have hsorted' := hr'.pairwise_map_key_preference t
  rw [prefer_congr h.partitioner_eq h.factor_eq] at hsorted'
  refine eq_of_pairwise_prefer hsorted' (hr.pairwise_map_key_preference t) fun key => ?_
  rw [hr'.mem_map_key_preference, hr.mem_map_key_preference, h.contains_eq]

/-- What members look like is told by their keys. -/
theorem Sound.map_preference_eq (hr : r.Sound) (t : Token) : (r.preference t).map f =
    ((r.preference t).map Member.key).filterMap fun key => (r.get? key).map f := by
  rw [← List.map_filterMap, hr.filterMap_get?_map_key fun m hm => mem_preference.mp hm]

/-- Alike rings have the same order of members, by the names that they have in common. -/
theorem Alike.map_preference_eq (h : Alike f g r r') (hr : r.Sound) (hr' : r'.Sound) (t : Token) :
    (r'.preference t).map g = (r.preference t).map f := by
  rw [hr'.map_preference_eq, hr.map_preference_eq, h.map_key_preference_eq hr hr']
  simp only [h.get?_eq]

theorem Alike.size_eq (h : Alike f g r r') (hr : r.Sound) (hr' : r'.Sound) : r'.size = r.size := by
  have hlength := congrArg List.length (h.map_preference_eq hr hr' ⟨0⟩)
  rwa [List.length_map, List.length_map, length_preference, length_preference] at hlength

/-- The owners of a key look alike, one by one. -/
theorem Alike.map_ownersOf_eq (h : Alike f g r r') (hr : r.Sound) (hr' : r'.Sound) (key : ByteArray)
    (n : Nat) : (r'.ownersOf key n).map g = (r.ownersOf key n).map f := by
  rw [hr'.ownersOf_eq, hr.ownersOf_eq, List.map_take, List.map_take, h.partitioner_eq,
    h.map_preference_eq hr hr']

/-! ## Fresh rings -/

/-- A new ring with these members. -/
def ofMembers (p : Partitioner) (factor : UInt16) (ms : List μ) : Except RingError (Ring μ) := do
  let empty ← new p factor
  empty.addAll ms

/-- Members with distinct keys make a sound ring. -/
theorem exists_ofMembers (p : Partitioner) {factor : UInt16} (hfactor : factor ≠ 0) {ms : List μ}
    (hnodup : (ms.map Member.key).Nodup) : ∃ r, ofMembers p factor ms = .ok r ∧ r.Sound ∧
      r.partitioner = p ∧ r.factor = factor ∧
      ∀ key m, r.get? key = some m ↔ m ∈ ms ∧ Member.key m = key := by
  have hnew := new_eq_ok (μ := μ) (p := p) hfactor
  obtain ⟨r, hall, hsound, hp, hf, hget⟩ := exists_addAll ms (Sound.new hnew) hnodup
    (fun m _ => by simp [contains])
  refine ⟨r, ?_, hsound, hp, hf, fun key m => ?_⟩
  · rw [ofMembers, hnew]
    exact hall
  · rw [hget]
    simp [get?]

/-- A ring with these members has as many as there are. -/
theorem Sound.size_eq_length (hr : r.Sound) {ms : List μ} (hnodup : ms.Nodup)
    (hget : ∀ m, r.get? (Member.key m) = some m ↔ m ∈ ms) : r.size = ms.length := by
  have hperm : r.toList.Perm ms := by
    refine (List.perm_ext_iff_of_nodup (List.Nodup.of_map _ hr.nodup_map_key) hnodup).mpr
      fun m => ?_
    rw [hr.mem_toList_iff, hget]
  rw [← length_toList, hperm.length_eq]

end RingRouting.Ring
