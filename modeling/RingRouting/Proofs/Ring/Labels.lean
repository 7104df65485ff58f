import Mathlib.Data.List.Induction
import Mathlib.Data.List.Nodup
import RingRouting.Proofs.Ring.History

/-!
# Labels of virtual nodes

A virtual node stands where its label hashes to, and the label is the key of the member followed by
the index. Nothing marks where the key ends, so that a label can be read in more than one way: `a`
with index 10 and `a1` with index 0 have one label. That is the only way in which labels of
different virtual nodes coincide (`label_eq_label_iff`). So members share a token if the partitioner
maps two labels to it, or if the key of one goes on with digits where that of the other one ends,
and each has as many tokens as it should. Main statement: `share_token_iff`.
-/

namespace RingRouting

/-! ## Decimal numbers -/

/-- What is left of the digits of a number once those of another one are taken off its end are the
digits of a third number, if anything is left. It is not zero, because numbers begin with no zero
but the last one. -/
theorem exists_toDigits_of_append {n m : Nat} {front : List Char} (hfront : front ≠ [])
    (h : Nat.toDigits 10 n = front ++ Nat.toDigits 10 m) : ∃ d, 0 < d ∧
    front = Nat.toDigits 10 d := by
  induction m using Nat.strongRecOn generalizing n with
  | ind m ih =>
    -- there are two digits at least
    have hn : ¬n < 10 := by
      intro hn
      have hlength := congrArg List.length h
      rw [Nat.toDigits_of_lt_base hn, List.length_append, List.length_singleton] at hlength
      have hfront := List.length_pos_iff.mpr hfront
      have hm := List.length_pos_iff.mpr (Nat.toDigits_ne_nil (n := m) (b := 10))
      omega
    rw [Nat.toDigits_eq_if (by decide), if_neg hn, Nat.toDigits_eq_if (by decide) (n := m)] at h
    split at h
    next => exact ⟨n / 10, by omega, (List.append_inj' h rfl).1.symm⟩
    next hm =>
      rw [← List.append_assoc] at h
      exact ih (m / 10) (by omega) (List.append_inj' h rfl).1

/-- The partitioner maps two texts, which are different, to one token. -/
def Partitioner.Collides (p : Partitioner) (x y : String) : Prop :=
  x.toUTF8 ≠ y.toUTF8 ∧ p.token x.toUTF8 = p.token y.toUTF8

namespace VirtualNode

/-- The longer of two keys goes on, where the shorter one ends, with the first digits of the shorter
one's index, and what is left of that index is the longer one's. -/
def Continues (member : String) (i : Nat) (longer : String) (j : Nat) : Prop :=
  ∃ d, 0 < d ∧ longer = member ++ toString d ∧ toString i = toString d ++ toString j

variable {member member' : String} {i j : Nat}

/-- A label is the member's key with the digits of the index behind it. -/
theorem toList_label (member : String) (i : Nat) :
    (label member i).toList = member.toList ++ Nat.toDigits 10 i := by
  rw [label, String.toList_append]
  exact congrArg _ Nat.toList_repr

/-- Keys that continue each other lead to the same label. -/
theorem Continues.label_eq (h : Continues member i member' j) :
    label member i = label member' j := by
  obtain ⟨d, -, rfl, hi⟩ := h
  rw [label, label, hi, String.append_assoc]

theorem Continues.ne (h : Continues member i member' j) : member ≠ member' := by
  obtain ⟨d, -, rfl, -⟩ := h
  intro heq
  have hlength := congrArg (fun s : String => s.toList.length) heq
  have hd := List.length_pos_iff.mpr (Nat.toDigits_ne_nil (n := d) (b := 10))
  simp only [String.toList_append, List.length_append] at hlength
  rw [show (toString d).toList = Nat.toDigits 10 d from Nat.toList_repr] at hlength
  omega

/-- Labels are the same for no other reason. -/
theorem eq_or_continues_of_append {front : List Char}
    (hmember : member'.toList = member.toList ++ front)
    (hdigits : Nat.toDigits 10 i = front ++ Nat.toDigits 10 j) :
    (member = member' ∧ i = j) ∨ Continues member i member' j := by
  by_cases hfront : front = []
  · subst hfront
    rw [List.append_nil] at hmember
    have hij := congrArg (Nat.ofDigitChars 10 · 0) hdigits
    simp only [List.nil_append, Nat.ofDigitChars_toDigits (b := 10) (by decide) (by decide)] at hij
    exact .inl ⟨(String.toList_inj.mp hmember).symm, hij⟩
  · obtain ⟨d, hd, rfl⟩ := exists_toDigits_of_append hfront hdigits
    refine .inr ⟨d, hd, ?_, ?_⟩
    · rw [← String.toList_inj, hmember, String.toList_append]
      exact congrArg _ Nat.toList_repr.symm
    · rw [← String.toList_inj, String.toList_append]
      exact (Nat.toList_repr.trans hdigits).trans
        (congrArg₂ _ Nat.toList_repr.symm Nat.toList_repr.symm)

/-- When two labels are the same text. -/
theorem label_eq_label_iff : label member i = label member' j ↔
    (member = member' ∧ i = j) ∨ Continues member i member' j ∨ Continues member' j member i := by
  constructor
  · intro h
    have hlists := congrArg String.toList h
    rw [toList_label, toList_label, List.append_eq_append_iff] at hlists
    rcases hlists with ⟨front, hmember, hdigits⟩ | ⟨front, hmember, hdigits⟩
    · exact (eq_or_continues_of_append hmember hdigits).imp_right .inl
    · refine (eq_or_continues_of_append hmember hdigits).imp ?_ .inr
      exact fun h => ⟨h.1.symm, h.2.symm⟩
  · intro h
    rcases h with ⟨rfl, rfl⟩ | h | h
    · rfl
    · exact h.label_eq
    · exact h.label_eq.symm

/-- Virtual nodes with one label stand on one token. -/
theorem token_ofIndex_eq (p : Partitioner)
    (h : Continues member i member' j ∨ Continues member' j member i) :
    (ofIndex p member i).token = (ofIndex p member' j).token := by
  rw [ofIndex, ofIndex, label_eq_label_iff.mpr (.inr h)]

/-- The labels of one member are all different. -/
theorem label_injective (member : String) : Function.Injective (label member) := by
  intro i j h
  rcases label_eq_label_iff.mp h with ⟨-, rfl⟩ | h | h
  · rfl
  · exact absurd rfl h.ne
  · exact absurd rfl h.ne

end VirtualNode

namespace Ring

open VirtualNode (label ofIndex Continues)

variable {μ : Type} {r : Ring μ} {key key' : String} {i j : Nat}

/-- The labels that the virtual nodes of the members are hashed from. -/
def labels (r : Ring μ) : List String :=
  r.members.keys.flatMap fun key => (List.range r.factor.toNat).map (label key)

/-- The partitioner maps no two labels of the ring to one token. -/
def Discerning (r : Ring μ) : Prop :=
  ∀ x ∈ r.labels, ∀ y ∈ r.labels, r.partitioner.token x.toUTF8 = r.partitioner.token y.toUTF8 →
    x = y

instance (r : Ring μ) : Decidable r.Discerning :=
  inferInstanceAs (Decidable (∀ x ∈ r.labels, ∀ y ∈ r.labels,
    r.partitioner.token x.toUTF8 = r.partitioner.token y.toUTF8 → x = y))

theorem mem_keys : key ∈ r.members.keys ↔ r.contains key :=
  Std.ExtTreeMap.mem_keys.trans Iff.rfl

theorem label_mem_labels (hkey : r.contains key) (hi : i < r.factor.toNat) :
    label key i ∈ r.labels := by
  refine List.mem_flatMap.mpr ⟨key, mem_keys.mpr hkey, ?_⟩
  exact List.mem_map_of_mem (List.mem_range.mpr hi)

/-- A partitioner that tells labels apart gives the same token to equal ones only. -/
theorem Discerning.label_eq (h : r.Discerning) (hkey : r.contains key) (hkey' : r.contains key')
    (hi : i < r.factor.toNat) (hj : j < r.factor.toNat)
    (heq : (ofIndex r.partitioner key i).token = (ofIndex r.partitioner key' j).token) :
    label key i = label key' j :=
  h _ (label_mem_labels hkey hi) _ (label_mem_labels hkey' hj) heq

/-- A member has as many tokens as virtual nodes. -/
theorem Discerning.nodup_map_token (h : r.Discerning) (hkey : r.contains key) :
    ((r.placement key).map (·.token)).Nodup := by
  rw [placement, VirtualNode.placement, List.map_map]
  refine List.Nodup.map_on ?_ List.nodup_range
  intro i hi j hj heq
  exact VirtualNode.label_injective key
    (h.label_eq hkey hkey (List.mem_range.mp hi) (List.mem_range.mp hj) heq)

/-- The virtual nodes of all members, member by member. -/
theorem Discerning.nodup_placements (h : r.Discerning) :
    (r.members.keys.flatMap r.placement).Nodup := by
  refine List.nodup_flatMap.mpr ⟨fun key hkey => ?_, ?_⟩
  · exact (h.nodup_map_token (mem_keys.mp hkey)).of_map
  · -- a virtual node names its member
    refine Std.ExtTreeMap.nodup_keys.imp ?_
    intro key key' hne v hv hv'
    exact hne ((member_eq_of_mem_placement hv).symm.trans (member_eq_of_mem_placement hv'))

/-- Two members share a token of a discerning ring where they share a label. -/
theorem Discerning.shares_iff (h : r.Discerning) (hkey : r.contains key) (hkey' : r.contains key')
    (hne : key' ≠ key) (hi : i < r.factor.toNat) :
    (ofIndex r.partitioner key i).token ∈ (r.placement key').map (·.token) ↔
      ∃ j < r.factor.toNat, Continues key i key' j ∨ Continues key' j key i := by
  rw [List.mem_map]
  constructor
  · rintro ⟨v, hv, heq⟩
    obtain ⟨j, hj, rfl⟩ := VirtualNode.mem_placement.mp hv
    rcases VirtualNode.label_eq_label_iff.mp (h.label_eq hkey hkey' hi hj heq.symm) with
      ⟨heq, -⟩ | hcase
    · exact absurd heq.symm hne
    · exact ⟨j, hj, hcase⟩
  · rintro ⟨j, hj, hcase⟩
    exact ⟨ofIndex r.partitioner key' j, VirtualNode.mem_placement.mpr ⟨j, hj, rfl⟩,
      (VirtualNode.token_ofIndex_eq r.partitioner hcase).symm⟩

variable [Member μ]

/-- A ring has the virtual nodes of its members. -/
theorem Sound.mem_vnodes_iff_placements (hr : r.Sound) (v : VirtualNode) :
    v ∈ r.vnodes ↔ v ∈ r.members.keys.flatMap r.placement := by
  rw [hr.mem_vnodes, List.mem_flatMap]
  constructor
  · exact fun h => ⟨v.member, mem_keys.mpr h.1, h.2⟩
  · intro h
    obtain ⟨key, hkey, hv⟩ := h
    obtain rfl := member_eq_of_mem_placement hv
    exact ⟨mem_keys.mp hkey, hv⟩

/-- A ring whose labels have tokens of their own has as many virtual nodes as were asked for. -/
theorem Sound.vnodeCount_eq (hr : r.Sound) (h : r.Discerning) :
    r.vnodeCount = r.size * r.factor.toNat := by
  have hdistinct : r.vnodes.toList.Nodup :=
    Std.ExtTreeSet.distinct_toList.imp fun hne heq =>
    hne (Std.LawfulEqOrd.compare_eq_iff_eq.mpr heq)
  have hperm : r.vnodes.toList.Perm (r.members.keys.flatMap r.placement) := by
    refine (List.perm_ext_iff_of_nodup hdistinct h.nodup_placements).mpr fun v => ?_
    rw [Std.ExtTreeSet.mem_toList, hr.mem_vnodes_iff_placements]
  have hlength (key : String) : (r.placement key).length = r.factor.toNat := by
    rw [placement, VirtualNode.placement, List.length_map, List.length_range]
  rw [vnodeCount, ← Std.ExtTreeSet.length_toList, hperm.length_eq, List.length_flatMap]
  simp only [hlength, List.map_const', List.sum_replicate_nat, Std.ExtTreeMap.length_keys, size]

/-- Two virtual nodes have one token if the partitioner maps their labels to it, which are
different, or if they belong to two members that have a label in common. Where the labels do not
collide, each member has all of its tokens, and two members share those where they have a label in
common. -/
theorem share_token_iff (hr : r.Reachable) :
    (∀ key key' i j, r.contains key → r.contains key' → i < r.factor.toNat → j < r.factor.toNat →
      (key, i) ≠ (key', j) →
      ((ofIndex r.partitioner key i).token = (ofIndex r.partitioner key' j).token ↔
        r.partitioner.Collides (label key i) (label key' j) ∨
          (key ≠ key' ∧ (Continues key i key' j ∨ Continues key' j key i)))) ∧
      (r.Discerning → r.vnodeCount = r.size * r.factor.toNat ∧
        ∀ key, r.contains key → ((r.placement key).map (·.token)).Nodup ∧
          ∀ i < r.factor.toNat, ∀ key', r.contains key' → key' ≠ key →
            ((ofIndex r.partitioner key i).token ∈ (r.placement key').map (·.token) ↔
              ∃ j < r.factor.toNat, Continues key i key' j ∨ Continues key' j key i)) := by
  refine ⟨fun key key' i j _ _ _ _ hne => ⟨fun htoken => ?_, fun hcase => ?_⟩,
    fun h => ⟨hr.sound.vnodeCount_eq h, fun key hkey => ?_⟩⟩
  · by_cases heq : label key i = label key' j
    · rcases VirtualNode.label_eq_label_iff.mp heq with ⟨rfl, rfl⟩ | hcase
      · exact absurd rfl hne
      · exact .inr ⟨hcase.elim (·.ne) (·.ne.symm), hcase⟩
    · exact .inl ⟨fun hbytes => heq (String.toByteArray_inj.mp hbytes), htoken⟩
  · rcases hcase with hcollides | ⟨-, hcase⟩
    · exact hcollides.2
    · exact VirtualNode.token_ofIndex_eq r.partitioner hcase
  · exact ⟨h.nodup_map_token hkey, fun i hi key' hkey' hne => h.shares_iff hkey hkey' hne hi⟩

/-- A virtual node of `a` and one of `a1` have one label. -/
theorem share_token_positional : ∃ empty : Ring String, new positional 11 = .ok empty ∧
    let r := empty.run [.add "a", .add "a1"]
    r.vnodeCount = 22 ∧ (ofIndex positional "a" 10).token ∈ (r.placement "a1").map (·.token) := by
  refine ⟨⟨positional, 11, by decide, ∅, ∅⟩, rfl, ?_⟩
  intro r
  obtain ⟨-, hdiscerning⟩ := share_token_iff (r := r) ⟨positional, 11, _, _, rfl, rfl⟩
  obtain ⟨hcount, hmembers⟩ := hdiscerning (by decide +kernel)
  obtain ⟨-, hshares⟩ := hmembers "a" (by decide)
  refine ⟨hcount, (hshares 10 (by decide) "a1" (by decide) (by decide)).mpr ⟨0, by decide, .inl ?_⟩⟩
  exact ⟨1, by decide, by decide, by decide⟩

/-- No two labels hash to one token. Still two members stand on one, so that neither of them has
eleven tokens for itself. -/
theorem tokens_shared_by_label : ∃ empty : Ring String, new positional 11 = .ok empty ∧
    let r := empty.run [.add "a", .add "a1"]
    r.Discerning ∧ ofIndex positional "a" 10 ∈ r.vnodes ∧ ofIndex positional "a1" 0 ∈ r.vnodes ∧
      (ofIndex positional "a" 10).token = (ofIndex positional "a1" 0).token ∧
      label "a" 10 = label "a1" 0 := by
  refine ⟨⟨positional, 11, by decide, ∅, ∅⟩, rfl, ?_, ?_, ?_, ?_, ?_⟩
  all_goals decide +kernel

end Ring

end RingRouting
