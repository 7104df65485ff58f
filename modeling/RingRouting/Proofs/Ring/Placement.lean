import RingRouting.Proofs.TreeMap
import RingRouting.Ring.Basic

/-!
# What stands where on a ring

A ring is sound if each member is kept under its own key and the virtual nodes are those that the
members have by their keys, no more and no fewer. Every operation keeps a ring sound: taking a
member off deletes the virtual nodes of one key, and a virtual node says whose it is, so that a
neighbour on the same token stays. Main statements: `Sound.add`, `Sound.remove` and
`Sound.exists_rebuild`, and `Sound.eq_of_get?_eq`, that a sound ring is told by its members alone.
-/

namespace RingRouting

/-- A member is placed once for each index below the factor. -/
theorem VirtualNode.mem_placement {p : Partitioner} {factor : UInt16} {key : String}
    {v : VirtualNode} :
    v ∈ placement p factor key ↔ ∃ i < factor.toNat, ofIndex p key i = v := by
  simp [placement]

namespace Ring

variable {μ : Type}

/-! ## Virtual nodes and look-ups -/

/-- A virtual node names the member that it belongs to. -/
theorem member_eq_of_mem_placement {r : Ring μ} {key : String} {v : VirtualNode}
    (h : v ∈ r.placement key) : v.member = key := by
  obtain ⟨i, -, rfl⟩ := VirtualNode.mem_placement.mp h
  rfl

/-- A member has at least one virtual node, because the number of them is not zero. -/
theorem exists_mem_placement (r : Ring μ) (key : String) : ∃ v, v ∈ r.placement key := by
  have hpos : 0 < r.factor.toNat := by
    have hne : r.factor.toNat ≠ 0 := fun h0 => r.factor_ne_zero (UInt16.toNat_inj.mp h0)
    omega
  exact ⟨_, VirtualNode.mem_placement.mpr ⟨0, hpos, rfl⟩⟩

/-- Placement is about the partitioner and the factor alone. -/
theorem placement_congr {ν : Type} {r : Ring μ} {r' : Ring ν} (hp : r'.partitioner = r.partitioner)
    (hf : r'.factor = r.factor) (key : String) : r'.placement key = r.placement key := by
  rw [placement, placement, hp, hf]

theorem mem_foldl_insert {vs : List VirtualNode} {s : Std.ExtTreeSet VirtualNode}
    {v : VirtualNode} :
    v ∈ vs.foldl .insert s ↔ v ∈ vs ∨ v ∈ s := by
  induction vs generalizing s with
  | nil => simp
  | cons w rest ih =>
    rw [List.foldl_cons, ih, Std.ExtTreeSet.mem_insert, Std.LawfulEqOrd.compare_eq_iff_eq,
      List.mem_cons, @eq_comm _ w]
    exact or_left_comm.trans or_assoc.symm

theorem mem_foldl_erase {vs : List VirtualNode} {s : Std.ExtTreeSet VirtualNode} {v : VirtualNode} :
    v ∈ vs.foldl .erase s ↔ v ∉ vs ∧ v ∈ s := by
  induction vs generalizing s with
  | nil => simp
  | cons w rest ih =>
    rw [List.foldl_cons, ih, Std.ExtTreeSet.mem_erase, Ne, Std.LawfulEqOrd.compare_eq_iff_eq,
      List.mem_cons, @eq_comm _ w, not_or]
    exact and_left_comm.trans and_assoc.symm

theorem contains_eq_isSome (r : Ring μ) (key : String) : r.contains key = (r.get? key).isSome :=
  Std.ExtTreeMap.contains_eq_isSome_getElem?

theorem get?_eq_none_iff {r : Ring μ} {key : String} : r.get? key = none ↔
    r.contains key = false := by
  rw [contains_eq_isSome]
  cases r.get? key <;> simp

theorem mem_toList {r : Ring μ} {m : μ} : m ∈ r.toList ↔ ∃ key, r.get? key = some m :=
  TreeMap.mem_values

theorem new_eq_ok {p : Partitioner} {factor : UInt16} (h : factor ≠ 0) :
    (new p factor : Except RingError (Ring μ)) = .ok ⟨p, factor, h, ∅, ∅⟩ :=
  dif_neg h

/-- A new ring is empty, and its factor is not zero. -/
theorem exists_of_new_eq_ok {p : Partitioner} {factor : UInt16} {r : Ring μ}
    (h : new p factor = .ok r) : ∃ h0, r = ⟨p, factor, h0, ∅, ∅⟩ := by
  by_cases h0 : factor = 0
  · rw [new, dif_pos h0] at h
    cases h
  · rw [new_eq_ok h0] at h
    exact ⟨h0, (Except.ok.inj h).symm⟩

/-! ## Taking a member off -/

/-- Only an unknown key cannot be removed. -/
theorem remove_eq_error_iff {r : Ring μ} {key : String} {e : RingError} :
    r.remove key = .error e ↔ r.contains key = false ∧ e = .memberUnknown key := by
  rw [remove, contains_eq_isSome]
  split
  next h => simp [h, eq_comm]
  next m h => simp [h]

theorem exists_remove {r : Ring μ} {key : String} {m : μ} (h : r.get? key = some m) :
    ∃ r', r.remove key = .ok (m, r') := by
  rw [remove, h]
  exact ⟨_, rfl⟩

/-- What stands on the ring once the member under a key was taken off. -/
structure Removed (r : Ring μ) (key : String) (m : μ) (r' : Ring μ) : Prop where
  held : r.get? key = some m
  partitioner_eq : r'.partitioner = r.partitioner
  factor_eq : r'.factor = r.factor
  get?_eq : ∀ other, r'.get? other = if key = other then none else r.get? other
  mem_vnodes : ∀ v, v ∈ r'.vnodes ↔ v ∉ r.placement key ∧ v ∈ r.vnodes

/-- What a removal does to a ring. -/
theorem removed_of_remove {r r' : Ring μ} {key : String} {m : μ} (h : r.remove key = .ok (m, r')) :
    r.Removed key m r' := by
  rw [remove] at h
  split at h
  next => cases h
  next held =>
    cases h
    exact ⟨held, rfl, rfl,
      fun other => by simp [get?, Std.ExtTreeMap.getElem?_erase], fun v => mem_foldl_erase⟩

theorem Removed.contains_iff {r r' : Ring μ} {key : String} {m : μ} (h : r.Removed key m r')
    (other : String) : r'.contains other ↔ key ≠ other ∧ r.contains other := by
  rw [contains_eq_isSome, contains_eq_isSome, h.get?_eq]
  by_cases hk : key = other <;> simp [hk]

/-! ## Adding a member -/

variable [Member μ]

/-- Only a member whose key is taken cannot be added. -/
theorem add_eq_error_iff {r : Ring μ} {m : μ} {e : RingError} :
    r.add m = .error e ↔ r.contains (Member.key m) ∧ e = .memberExists (Member.key m) := by
  rw [add]
  split
  next h => simp [h, eq_comm]
  next h => simp [h]

theorem exists_add {r : Ring μ} {m : μ} (h : r.contains (Member.key m) = false) :
    ∃ r', r.add m = .ok r' := by
  rw [add, if_neg (by simp [h])]
  exact ⟨_, rfl⟩

/-- What stands on the ring once a member was added. -/
structure Added (r : Ring μ) (m : μ) (r' : Ring μ) : Prop where
  free : r.contains (Member.key m) = false
  partitioner_eq : r'.partitioner = r.partitioner
  factor_eq : r'.factor = r.factor
  get?_eq : ∀ key, r'.get? key = if Member.key m = key then some m else r.get? key
  mem_vnodes : ∀ v, v ∈ r'.vnodes ↔ v ∈ r.placement (Member.key m) ∨ v ∈ r.vnodes

/-- What an addition does to a ring. -/
theorem added_of_add {r r' : Ring μ} {m : μ} (h : r.add m = .ok r') : r.Added m r' := by
  rw [add] at h
  split at h
  next => cases h
  next hfree =>
    cases h
    exact ⟨by simpa using hfree, rfl, rfl,
      fun key => by simp [get?, Std.ExtTreeMap.getElem?_insert], fun v => mem_foldl_insert⟩

theorem Added.contains_iff {r r' : Ring μ} {m : μ} (h : r.Added m r') (key : String) :
    r'.contains key ↔ Member.key m = key ∨ r.contains key := by
  rw [contains_eq_isSome, contains_eq_isSome, h.get?_eq]
  by_cases hk : Member.key m = key <;> simp [hk]

/-- What stands under a key is the new member, if it is its key, or what stood there before. -/
theorem Added.get?_eq_some_iff {r r' : Ring μ} {m m' : μ} (h : r.Added m r') (key : String) :
    r'.get? key = some m' ↔ (m' = m ∧ Member.key m = key) ∨ r.get? key = some m' := by
  rw [h.get?_eq]
  by_cases hk : Member.key m = key
  · have hnone : r.get? key = none := get?_eq_none_iff.mpr (hk ▸ h.free)
    simp [hk, hnone, eq_comm]
  · simp [hk]

/-! ## Sound rings -/

/-- Each member is kept under its own key, and the virtual nodes are those of the members. -/
structure Sound (r : Ring μ) : Prop where
  key_eq : ∀ key m, r.get? key = some m → Member.key m = key
  mem_vnodes : ∀ v, v ∈ r.vnodes ↔ r.contains v.member ∧ v ∈ r.placement v.member

/-- A ring without members has no virtual nodes either. -/
theorem Sound.new {p : Partitioner} {factor : UInt16} {r : Ring μ} (h : Ring.new p factor = .ok r) :
    r.Sound := by
  obtain ⟨-, rfl⟩ := exists_of_new_eq_ok h
  exact ⟨fun key m hm => by simp [get?] at hm, fun v => by simp [contains]⟩

/-- An addition keeps the ring sound. -/
theorem Sound.add {r r' : Ring μ} {m : μ} (hr : r.Sound) (h : r.Added m r') : r'.Sound where
  key_eq key m' hm := by
    rcases (h.get?_eq_some_iff key).mp hm with ⟨rfl, hk⟩ | hold
    · exact hk
    · exact hr.key_eq key m' hold
  mem_vnodes v := by
    rw [h.mem_vnodes, hr.mem_vnodes, h.contains_iff, placement_congr h.partitioner_eq h.factor_eq]
    constructor
    · intro hcase
      rcases hcase with hv | ⟨hc, hv⟩
      · have hk := member_eq_of_mem_placement hv
        exact ⟨Or.inl hk.symm, hk ▸ hv⟩
      · exact ⟨Or.inr hc, hv⟩
    · intro hcase
      rcases hcase with ⟨hk | hc, hv⟩
      · exact Or.inl (hk ▸ hv)
      · exact Or.inr ⟨hc, hv⟩

/-- So does a removal, which takes just the member's own virtual nodes out. -/
theorem Sound.remove {r r' : Ring μ} {key : String} {m : μ} (hr : r.Sound)
    (h : r.Removed key m r') : r'.Sound where
  key_eq other m' hm := by
    rw [h.get?_eq] at hm
    split at hm
    next => cases hm
    next => exact hr.key_eq other m' hm
  mem_vnodes v := by
    rw [h.mem_vnodes, hr.mem_vnodes, h.contains_iff, placement_congr h.partitioner_eq h.factor_eq]
    -- A virtual node among those of `key` names `key`, whatever token it shares with others.
    constructor
    · intro hcase
      obtain ⟨hnot, hc, hv⟩ := hcase
      exact ⟨⟨fun hk => hnot (hk ▸ hv), hc⟩, hv⟩
    · intro hcase
      obtain ⟨⟨hk, hc⟩, hv⟩ := hcase
      exact ⟨fun hin => hk (member_eq_of_mem_placement hin).symm, hc, hv⟩

/-- The members are listed in the order of their keys. -/
theorem Sound.map_key_toList {r : Ring μ} (hr : r.Sound) :
    r.toList.map Member.key = r.members.keys := by
  rw [toList, TreeMap.values_eq_map_toList, List.map_map, ← Std.ExtTreeMap.map_fst_toList_eq_keys]
  refine List.map_congr_left fun ⟨key, m⟩ hm => ?_
  exact hr.key_eq key m (Std.ExtTreeMap.mem_toList_iff_getElem?_eq_some.mp hm)

/-- No two members have the same key. -/
theorem Sound.nodup_map_key {r : Ring μ} (hr : r.Sound) : (r.toList.map Member.key).Nodup :=
  hr.map_key_toList ▸ Std.ExtTreeMap.nodup_keys

theorem Sound.mem_toList_iff {r : Ring μ} (hr : r.Sound) {m : μ} :
    m ∈ r.toList ↔ r.get? (Member.key m) = some m := by
  rw [mem_toList]
  constructor
  · intro hcase
    obtain ⟨key, hm⟩ := hcase
    exact hr.key_eq key m hm ▸ hm
  · exact fun hm => ⟨_, hm⟩

/-- A sound ring is told by its partitioner, its number of virtual nodes and its members. -/
theorem Sound.eq_of_get?_eq {r r' : Ring μ} (hr : r.Sound) (hr' : r'.Sound)
    (hp : r'.partitioner = r.partitioner) (hf : r'.factor = r.factor)
    (hget : ∀ key, r'.get? key = r.get? key) : r' = r := by
  have hvnodes : r'.vnodes = r.vnodes := by
    refine Std.ExtTreeSet.ext_mem fun v => ?_
    rw [hr'.mem_vnodes, hr.mem_vnodes, contains_eq_isSome, contains_eq_isSome, hget,
      placement_congr hp hf]
  have hmembers : r'.members = r.members := Std.ExtTreeMap.ext_getElem? fun key => hget key
  cases r
  cases r'
  simp_all

/-! ## Building the ring anew -/

/-- Members with different keys can be placed one after the other where their keys are free. -/
theorem exists_addAll (ms : List μ) {r : Ring μ} (hr : r.Sound)
    (hnodup : (ms.map Member.key).Nodup) (hfree : ∀ m ∈ ms, r.contains (Member.key m) = false) :
    ∃ r', r.addAll ms = .ok r' ∧ r'.Sound ∧ r'.partitioner = r.partitioner ∧
      r'.factor = r.factor ∧
      ∀ key m, r'.get? key = some m ↔ (m ∈ ms ∧ Member.key m = key) ∨ r.get? key = some m := by
  induction ms generalizing r with
  | nil => exact ⟨r, rfl, hr, rfl, rfl, by simp⟩
  | cons m rest ih =>
    obtain ⟨hm, hrest⟩ := List.nodup_cons.mp hnodup
    obtain ⟨r₁, hadd⟩ := exists_add (hfree m (List.mem_cons_self ..))
    have hadded := added_of_add hadd
    have hfree₁ : ∀ m' ∈ rest, r₁.contains (Member.key m') = false := by
      intro m' hm'
      have hne : Member.key m ≠ Member.key m' := fun he => hm (he ▸ List.mem_map_of_mem hm')
      have hold := hfree m' (List.mem_cons_of_mem _ hm')
      rw [Bool.eq_false_iff, Ne, hadded.contains_iff]
      simp [hne, hold]
    obtain ⟨r', hall, hsound, hp, hf, hget⟩ := ih (hr.add hadded) hrest hfree₁
    refine ⟨r', ?_, hsound, hp.trans hadded.partitioner_eq, hf.trans hadded.factor_eq, ?_⟩
    · rw [addAll, List.foldlM_cons, hadd]
      exact hall
    · intro key m'
      rw [hget, hadded.get?_eq_some_iff, List.mem_cons]
      constructor
      · intro hcase
        rcases hcase with ⟨hin, hkey⟩ | ⟨rfl, hkey⟩ | hold
        · exact .inl ⟨.inr hin, hkey⟩
        · exact .inl ⟨.inl rfl, hkey⟩
        · exact .inr hold
      · intro hcase
        rcases hcase with ⟨rfl | hin, hkey⟩ | hold
        · exact .inr (.inl ⟨rfl, hkey⟩)
        · exact .inl ⟨hin, hkey⟩
        · exact .inr (.inr hold)

/-- What stands on a ring that was built anew with another number of virtual nodes. -/
structure Rebuilt (r : Ring μ) (factor : UInt16) (r' : Ring μ) : Prop where
  sound : r'.Sound
  partitioner_eq : r'.partitioner = r.partitioner
  factor_eq : r'.factor = factor
  get?_eq : ∀ key, r'.get? key = r.get? key

/-- A ring can be rebuilt with every factor but zero. -/
theorem Sound.exists_rebuild {r : Ring μ} (hr : r.Sound) {factor : UInt16} (hf : factor ≠ 0) :
    ∃ r', r.rebuild factor = .ok r' ∧ r.Rebuilt factor r' := by
  have hnew := new_eq_ok (μ := μ) (p := r.partitioner) hf
  obtain ⟨r', hall, hsound, hp, hf', hget⟩ := exists_addAll r.toList (Sound.new hnew)
    hr.nodup_map_key (fun m _ => by simp [contains])
  refine ⟨r', ?_, hsound, hp, hf', fun key => Option.ext fun m => ?_⟩
  · rw [rebuild, hnew]
    exact hall
  · rw [hget, hr.mem_toList_iff]
    constructor
    · intro hcase
      rcases hcase with ⟨hm, rfl⟩ | habs
      · exact hm
      · simp [get?] at habs
    · intro hm
      have hk := hr.key_eq key m hm
      exact Or.inl ⟨hk ▸ hm, hk⟩

theorem Sound.rebuild_eq_error_iff {r : Ring μ} (hr : r.Sound) {factor : UInt16} {e : RingError} :
    r.rebuild factor = .error e ↔ factor = 0 ∧ e = .zeroFactor := by
  by_cases h0 : factor = 0
  · subst h0
    show Except.error RingError.zeroFactor = .error e ↔ _
    simp [eq_comm]
  · obtain ⟨r', h, -⟩ := hr.exists_rebuild h0
    simp [h, h0]

/-- What a rebuild does to a ring. -/
theorem Sound.rebuilt_of_rebuild {r r' : Ring μ} (hr : r.Sound) {factor : UInt16}
    (h : r.rebuild factor = .ok r') : factor ≠ 0 ∧ r.Rebuilt factor r' := by
  have h0 : factor ≠ 0 := by
    intro h0
    rw [hr.rebuild_eq_error_iff.mpr ⟨h0, rfl⟩] at h
    cases h
  obtain ⟨r₁, hok, hrebuilt⟩ := hr.exists_rebuild h0
  obtain rfl : r₁ = r' := Except.ok.inj (hok.symm.trans h)
  exact ⟨h0, hrebuilt⟩

end Ring

end RingRouting
