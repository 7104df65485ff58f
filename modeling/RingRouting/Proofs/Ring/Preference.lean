import Mathlib.Data.List.Basic
import RingRouting.Proofs.Ring.History
import RingRouting.Proofs.Text.ByteOrder
import RingRouting.Ring.Lookup

/-!
# The order of preference

A look-up is told without a walk: sort all members by how far clockwise of the key the nearest of
their virtual nodes stands, and members at one distance by the bytes of their keys; the owners of
the key are the first members of that list. The walk meets virtual nodes by growing distance, so it
meets a member first at the nearest of its virtual nodes. Main statement:
`findN_eq_take_preference`.
-/

namespace RingRouting.Ring

variable {μ : Type}

/-- How many tokens clockwise of `t` the nearest virtual node of a member stands. -/
def reach (r : Ring μ) (t : Token) (key : String) : Nat :=
  (((r.placement key).map fun v => (t.distance v.token).toNat).min?).getD 0

/-- Which of two members a key at `t` prefers: the nearer one, and of two at one distance the one
whose key comes first byte by byte. -/
def prefer (r : Ring μ) (t : Token) : String → String → Ordering :=
  compareLex (compareOn (r.reach t)) (compareOn Text.bytes)

/-- All members, those that a key at `t` prefers first. -/
def preference [Member μ] (r : Ring μ) (t : Token) : List μ :=
  r.toList.mergeSort fun a b => (r.prefer t (Member.key a) (Member.key b)).isLE

instance (r : Ring μ) (t : Token) : Std.TransCmp (r.prefer t) :=
  inferInstanceAs (Std.TransCmp (compareLex (compareOn (r.reach t)) (compareOn Text.bytes)))

/-- Preferred is who is reached first, and of those reached together the lesser key. -/
theorem prefer_eq_lt_iff {r : Ring μ} {t : Token} {a b : String} :
    r.prefer t a b = .lt ↔
      r.reach t a < r.reach t b ∨ r.reach t a = r.reach t b ∧ compare a b = .lt := by
  show (compare (r.reach t a) (r.reach t b)).then (compare (Text.bytes a) (Text.bytes b)) = .lt ↔ _
  rw [Ordering.then_eq_lt, Nat.compare_eq_lt, Nat.compare_eq_eq, Text.compare_bytes]

instance (r : Ring μ) (t : Token) : Std.LawfulEqCmp (r.prefer t) where
  eq_of_compare {a b} h := by
    have hbytes : compare (Text.bytes a) (Text.bytes b) = .eq := (compareLex_eq_eq.mp h).2
    rw [Text.compare_bytes] at hbytes
    exact Std.LawfulEqOrd.eq_of_compare hbytes

/-- The reach of a member is the distance of one of its virtual nodes, and of none less. -/
theorem reach_eq_iff {r : Ring μ} {t : Token} {key : String} {d : Nat} :
    r.reach t key = d ↔ (∃ v ∈ r.placement key, (t.distance v.token).toNat = d) ∧
      ∀ v ∈ r.placement key, d ≤ (t.distance v.token).toNat := by
  obtain ⟨v, hv⟩ := r.exists_mem_placement key
  have hmin (d' : Nat) :
      ((r.placement key).map fun v => (t.distance v.token).toNat).min? = some d' ↔
      (∃ v ∈ r.placement key, (t.distance v.token).toNat = d') ∧
        ∀ v ∈ r.placement key, d' ≤ (t.distance v.token).toNat := by
    rw [List.min?_eq_some_iff]
    simp
  rw [← hmin, reach]
  cases h : ((r.placement key).map fun v => (t.distance v.token).toNat).min? with
  | none => simp [List.min?_eq_none_iff, List.ne_nil_of_mem hv] at h
  | some d' => simp

/-- Two lists in strict order of preference are equal if they have the same items. -/
theorem eq_of_pairwise_prefer {α : Type} {r : Ring μ} {t : Token} {f : α → String} {as bs : List α}
    (has : as.Pairwise fun a b => r.prefer t (f a) (f b) = .lt)
    (hbs : bs.Pairwise fun a b => r.prefer t (f a) (f b) = .lt) (hmem : ∀ a, a ∈ as ↔ a ∈ bs) :
    as = bs := by
  have hnodup {cs : List α} (hcs : cs.Pairwise fun a b => r.prefer t (f a) (f b) = .lt) :
      cs.Nodup :=
    hcs.imp fun hlt heq => by simp [heq, Std.ReflCmp.compare_self] at hlt
  have hperm := (List.perm_ext_iff_of_nodup (hnodup has) (hnodup hbs)).mpr hmem
  refine hperm.eq_of_pairwise ?_ has hbs
  intro a b _ _ hab hba
  exact absurd hba (Std.OrientedCmp.not_lt_of_lt hab)

/-! ## The walk goes by growing distance -/

/-- Virtual nodes are ordered by their tokens, and then by their members. -/
theorem compare_eq_lt_iff {v w : VirtualNode} :
    compare v w = .lt ↔ v.token.val.toNat < w.token.val.toNat ∨
      v.token.val.toNat = w.token.val.toNat ∧ compare v.member w.member = .lt := by
  show (compare v.token.val w.token.val).then (compare v.member w.member) = .lt ↔ _
  rw [Ordering.then_eq_lt, Std.LawfulEqOrd.compare_eq_iff_eq, Std.compare_eq_lt,
    UInt64.lt_iff_toNat_lt, ← UInt64.toNat_inj]

/-- No key sorts before the empty one, so only tokens decide what comes before the probe. -/
theorem before_probe_iff {v : VirtualNode} {t : Token} :
    v.before ⟨t, ""⟩ ↔ v.token.val.toNat < t.val.toNat := by
  have hempty : compare v.member "" ≠ .lt := by
    intro h
    have hlt : v.member < "" := compareOfLessAndEq_eq_lt.mp h
    exact List.not_lt_nil _ hlt
  rw [VirtualNode.before, beq_iff_eq, compare_eq_lt_iff]
  simp [hempty]

/-- The way from one token clockwise to another, around the circle if need be. -/
theorem toNat_distance (t u : Token) : (t.distance u).toNat =
    if t.val.toNat ≤ u.val.toNat then u.val.toNat - t.val.toNat
    else UInt64.size + u.val.toNat - t.val.toNat := by
  have ht := t.val.toNat_lt
  have hu := u.val.toNat_lt
  rw [Token.distance, UInt64.toNat_sub]
  simp only [UInt64.size]
  split <;> omega

/-- A walk from `t` meets `v` before `w`: it is nearer, or has the lesser key at the same
distance. -/
def Precedes (t : Token) (v w : VirtualNode) : Prop :=
  (t.distance v.token).toNat < (t.distance w.token).toNat ∨
    (t.distance v.token).toNat = (t.distance w.token).toNat ∧ compare v.member w.member = .lt

/-- A walk goes clockwise from its token. -/
theorem pairwise_walk (r : Ring μ) (t : Token) : (r.walk t).Pairwise (Precedes t) := by
  have hsorted : r.vnodes.toList.Pairwise (compare · · = .lt) := Std.ExtTreeSet.ordered_toList
  unfold walk
  rw [List.pairwise_append]
  refine ⟨?_, ?_, ?_⟩
  · -- from `t` on, the distance is the difference of the tokens
    refine (hsorted.filter _).imp_of_mem ?_
    intro v w hv hw hlt
    simp only [List.mem_filter, Bool.not_eq_true', ← Bool.not_eq_true, before_probe_iff] at hv hw
    rw [Precedes, toNat_distance, toNat_distance, if_pos (by omega), if_pos (by omega)]
    rcases compare_eq_lt_iff.mp hlt with htoken | ⟨htoken, hmember⟩
    · exact .inl (by omega)
    · exact .inr ⟨by omega, hmember⟩
  · -- before `t`, the walk has gone once past the end of the ring
    refine (hsorted.filter _).imp_of_mem ?_
    intro v w hv hw hlt
    simp only [List.mem_filter, before_probe_iff] at hv hw
    have htlt : t.val.toNat < UInt64.size := t.val.toNat_lt
    rw [Precedes, toNat_distance, toNat_distance, if_neg (by omega), if_neg (by omega)]
    rcases compare_eq_lt_iff.mp hlt with htoken | ⟨htoken, hmember⟩
    · exact .inl (by omega)
    · exact .inr ⟨by omega, hmember⟩
  · intro v hv w hw
    simp only [List.mem_filter, Bool.not_eq_true', ← Bool.not_eq_true, before_probe_iff] at hv hw
    have hvlt := v.token.val.toNat_lt
    -- the first part ends before the end of the ring, and the second begins there
    rw [Precedes, toNat_distance, toNat_distance, if_pos (by omega), if_neg (by omega)]
    simp only [UInt64.size]
    omega

/-- A walk comes to every virtual node. -/
theorem mem_walk {r : Ring μ} {t : Token} {v : VirtualNode} : v ∈ r.walk t ↔ v ∈ r.vnodes := by
  rw [walk, List.mem_append, List.mem_filter, List.mem_filter, Std.ExtTreeSet.mem_toList]
  cases v.before ⟨t, ""⟩ <;> simp

/-! ## The members in the order in which a walk first meets them -/

/-- In a list that goes by growing distance, members first occur by growing reach: a member's first
occurrence is at its least distance. -/
theorem pairwise_eraseDups {t : Token} (reach : String → Nat) :
    ∀ {vs : List VirtualNode}, vs.Pairwise (Precedes t) →
      (∀ v ∈ vs, reach v.member ≤ (t.distance v.token).toNat) →
      (∀ v ∈ vs, ∃ w ∈ vs, w.member = v.member ∧ (t.distance w.token).toNat = reach v.member) →
      (vs.map (·.member)).eraseDups.Pairwise fun a b =>
        reach a < reach b ∨ reach a = reach b ∧ compare a b = .lt
  | [], _, _, _ => List.Pairwise.nil
  | v :: rest, hvs, hle, hat => by
    obtain ⟨hv, hrest⟩ := List.pairwise_cons.mp hvs
    rw [List.map_cons, List.eraseDups_cons, List.filter_map]
    refine List.pairwise_cons.mpr ⟨?_, ?_⟩
    · intro b hb
      obtain ⟨w, hw, rfl⟩ := List.mem_map.mp (List.mem_eraseDups.mp hb)
      obtain ⟨hw, hne⟩ := List.mem_filter.mp hw
      -- `v` itself is the nearest of its member's virtual nodes ...
      have hfirst : reach v.member = (t.distance v.token).toNat := by
        obtain ⟨u, hu, -, hdu⟩ := hat v (List.mem_cons_self ..)
        have hvle := hle v (List.mem_cons_self ..)
        rcases List.mem_cons.mp hu with rfl | hu
        · exact hdu.symm
        · have hprecedes := hv u hu
          unfold Precedes at hprecedes
          omega
      -- ... and the nearest one of any other member comes after it.
      obtain ⟨u, hu, hum, hdu⟩ := hat w (List.mem_cons_of_mem _ hw)
      have hne : w.member ≠ v.member := by simpa using hne
      rcases List.mem_cons.mp hu with rfl | hu
      · exact absurd hum.symm hne
      · rcases hv u hu with hlt | ⟨heq, hlt⟩
        · exact .inl (by omega)
        · exact .inr ⟨by omega, hum ▸ hlt⟩
    · -- without the virtual nodes of `v`'s member, every other member keeps its nearest one
      refine pairwise_eraseDups reach (hrest.filter _) ?_ ?_
      · intro w hw
        exact hle w (List.mem_cons_of_mem _ (List.mem_filter.mp hw).1)
      · intro w hw
        obtain ⟨hw, hne⟩ := List.mem_filter.mp hw
        obtain ⟨u, hu, hum, hdu⟩ := hat w (List.mem_cons_of_mem _ hw)
        refine ⟨u, List.mem_filter.mpr ⟨?_, by simpa [hum] using hne⟩, hum, hdu⟩
        rcases List.mem_cons.mp hu with rfl | hu
        · simp [← hum] at hne
        · exact hu
  termination_by vs => vs.length
  decreasing_by
    simp only [List.length_cons]
    exact Nat.lt_succ_of_le (List.length_filter_le _ _)

/-! ## The list of all members -/

theorem isEmpty_iff {r : Ring μ} : r.isEmpty ↔ r.size = 0 := by
  rw [isEmpty, size, Std.ExtTreeMap.isEmpty_eq_size_beq_zero, beq_iff_eq]

theorem length_toList (r : Ring μ) : r.toList.length = r.size := by
  rw [toList, TreeMap.values_eq_map_toList, List.length_map, Std.ExtTreeMap.length_toList, size]

theorem toList_eq_nil_iff {r : Ring μ} : r.toList = [] ↔ r.size = 0 := by
  rw [← length_toList, List.length_eq_zero_iff]

theorem findN_eq_empty {r : Ring μ} (key : ByteArray) (n : Nat) (hsize : r.size = 0) :
    r.findN key n = .error .empty :=
  if_pos (isEmpty_iff.mpr hsize)

theorem find_eq_empty {r : Ring μ} (key : ByteArray) (hsize : r.size = 0) :
    r.find key = .error .empty := by
  rw [find, findN_eq_empty key 1 hsize]
  rfl

variable [Member μ]

/-- Every member has its place in the order of a token. -/
theorem mem_preference {r : Ring μ} {t : Token} {m : μ} : m ∈ r.preference t ↔ m ∈ r.toList :=
  List.mem_mergeSort

theorem length_preference (r : Ring μ) (t : Token) : (r.preference t).length = r.size := by
  rw [preference, List.length_mergeSort, length_toList]

theorem Sound.nodup_map_key_preference {r : Ring μ} (hr : r.Sound) (t : Token) :
    ((r.preference t).map Member.key).Nodup :=
  ((List.mergeSort_perm ..).map Member.key).nodup_iff.mpr hr.nodup_map_key

/-- No two members have the same key, so the list of all members is in strict order. -/
theorem Sound.pairwise_preference {r : Ring μ} (hr : r.Sound) (t : Token) :
    (r.preference t).Pairwise fun a b => r.prefer t (Member.key a) (Member.key b) = .lt := by
  have hsorted : (r.preference t).Pairwise
      fun a b => (r.prefer t (Member.key a) (Member.key b)).isLE :=
    List.pairwise_mergeSort (fun _ _ _ => Std.TransCmp.isLE_trans) (fun a b => by
      rw [Bool.or_eq_true, ← Std.OrientedCmp.isGE_iff_isLE (b := Member.key b)]
      cases r.prefer t (Member.key a) (Member.key b) <;> simp) _
  have hne := List.pairwise_map.mp (hr.nodup_map_key_preference t)
  refine (hsorted.and hne).imp fun {a b} h => ?_
  obtain ⟨hle, hne⟩ := h
  rcases Ordering.isLE_iff_eq_lt_or_eq_eq.mp hle with hlt | heq
  · exact hlt
  · exact absurd (Std.LawfulEqCmp.eq_of_compare heq) hne

/-- A walk comes to every member. -/
theorem Sound.mem_map_member_walk {r : Ring μ} (hr : r.Sound) {t : Token} {key : String} :
    key ∈ (r.walk t).map (·.member) ↔ r.contains key := by
  rw [List.mem_map]
  constructor
  · intro h
    obtain ⟨v, hv, rfl⟩ := h
    exact ((hr.mem_vnodes v).mp (mem_walk.mp hv)).1
  · intro hc
    obtain ⟨v, hv⟩ := r.exists_mem_placement key
    have hmember := member_eq_of_mem_placement hv
    exact ⟨v, mem_walk.mpr ((hr.mem_vnodes v).mpr (by rw [hmember]; exact ⟨hc, hv⟩)), hmember⟩

theorem Sound.mem_map_key_preference {r : Ring μ} (hr : r.Sound) {t : Token} {key : String} :
    key ∈ (r.preference t).map Member.key ↔ r.contains key := by
  unfold preference
  rw [((List.mergeSort_perm ..).map Member.key).mem_iff, hr.map_key_toList, Std.ExtTreeMap.mem_keys]
  exact Iff.rfl

/-- The whole walk meets the members in the order of preference. -/
theorem Sound.eraseDups_walk {r : Ring μ} (hr : r.Sound) (t : Token) :
    ((r.walk t).map (·.member)).eraseDups = (r.preference t).map Member.key := by
  have hsorted : ((r.walk t).map (·.member)).eraseDups.Pairwise (r.prefer t · · = .lt) := by
    refine (pairwise_eraseDups (r.reach t) (r.pairwise_walk t) ?_ ?_).imp prefer_eq_lt_iff.mpr
    · intro v hv
      exact (reach_eq_iff.mp rfl).2 v ((hr.mem_vnodes v).mp (mem_walk.mp hv)).2
    · -- the nearest virtual node of a member of the ring is met on the walk too
      intro v hv
      obtain ⟨hc, -⟩ := (hr.mem_vnodes v).mp (mem_walk.mp hv)
      obtain ⟨⟨w, hw, hdw⟩, -⟩ := reach_eq_iff.mp (rfl : r.reach t v.member = _)
      have hmember := member_eq_of_mem_placement hw
      refine ⟨w, mem_walk.mpr ((hr.mem_vnodes w).mpr ?_), hmember, hdw⟩
      rw [hmember]
      exact ⟨hc, hw⟩
  refine eq_of_pairwise_prefer hsorted (List.pairwise_map.mpr (hr.pairwise_preference t))
    fun key => ?_
  rw [List.mem_eraseDups, hr.mem_map_member_walk, hr.mem_map_key_preference]

/-- Keys of members lead back to the members. -/
theorem Sound.filterMap_get?_map_key {r : Ring μ} (hr : r.Sound) {ms : List μ}
    (hms : ∀ m ∈ ms, m ∈ r.toList) : (ms.map Member.key).filterMap r.get? = ms := by
  rw [List.filterMap_map]
  exact (List.filterMap_congr fun m hm => hr.mem_toList_iff.mp (hms m hm)).trans List.filterMap_some

/-- The owners of a key are the first of all members in the order of preference. -/
theorem Sound.findN_eq {r : Ring μ} (hr : r.Sound) (key : ByteArray) (n : Nat)
    (hsize : r.size ≠ 0) :
    r.findN key n = .ok ((r.preference (r.partitioner.token key)).take (min (max n 1) r.size)) := by
  rw [findN, if_neg (by rwa [isEmpty_iff])]
  show Except.ok _ = _
  have hseen (keys : List String) : keys.filter (!([] : List String).contains ·) = keys :=
    List.filter_eq_self.mpr fun _ _ => rfl
  rw [owners_eq, firstDistinct_eq_take, hseen, hr.eraseDups_walk, ← List.map_take,
    hr.filterMap_get?_map_key]
  exact fun m hm => mem_preference.mp (List.mem_of_mem_take hm)

/-- A look-up finds the most preferred member. -/
theorem Sound.find_eq {r : Ring μ} (hr : r.Sound) (key : ByteArray) (hsize : r.size ≠ 0) :
    ∃ m, (r.preference (r.partitioner.token key)).head? = some m ∧ r.find key = .ok m := by
  have hlength := r.length_preference (r.partitioner.token key)
  rw [find, hr.findN_eq key 1 hsize, show min (max 1 1) r.size = 1 by omega]
  cases hpreference : r.preference (r.partitioner.token key) with
  | nil =>
    rw [hpreference] at hlength
    exact absurd hlength.symm hsize
  | cons m rest => exact ⟨m, rfl, rfl⟩

/-- A look-up fails on an empty ring only. -/
theorem Sound.findN_eq_error_iff {r : Ring μ} (hr : r.Sound) {key : ByteArray} {n : Nat}
    {e : RingError} :
    r.findN key n = .error e ↔ r.toList = [] ∧ e = .empty := by
  rw [toList_eq_nil_iff]
  by_cases hsize : r.size = 0
  · rw [findN_eq_empty key n hsize, Except.error.injEq, eq_comm]
    exact (and_iff_right hsize).symm
  · rw [hr.findN_eq key n hsize]
    exact ⟨nofun, fun h => absurd h.1 hsize⟩

theorem Sound.find_eq_error_iff {r : Ring μ} (hr : r.Sound) {key : ByteArray} {e : RingError} :
    r.find key = .error e ↔ r.toList = [] ∧ e = .empty := by
  rw [toList_eq_nil_iff]
  by_cases hsize : r.size = 0
  · rw [find_eq_empty key hsize, Except.error.injEq, eq_comm]
    exact (and_iff_right hsize).symm
  · obtain ⟨m, -, hfind⟩ := hr.find_eq key hsize
    rw [hfind]
    exact ⟨nofun, fun h => absurd h.1 hsize⟩

/-- On every other ring it finds the most preferred members, as many as asked for. -/
theorem Sound.findN_eq_ok_iff {r : Ring μ} (hr : r.Sound) {key : ByteArray} {n : Nat}
    {ms : List μ} :
    r.findN key n = .ok ms ↔ r.toList ≠ [] ∧
      ms = (r.preference (r.partitioner.token key)).take (min (max n 1) r.size) := by
  rw [ne_eq, toList_eq_nil_iff]
  by_cases hsize : r.size = 0
  · rw [findN_eq_empty key n hsize]
    exact ⟨nofun, fun h => absurd hsize h.1⟩
  · rw [hr.findN_eq key n hsize, Except.ok.injEq, eq_comm]
    exact (and_iff_right hsize).symm

/-- Who asks for one owner more gets the same owners and perhaps one more. -/
theorem Sound.exists_findN_succ {r : Ring μ} (hr : r.Sound) (key : ByteArray) (n : Nat)
    (hsize : r.size ≠ 0) :
    ∃ more, r.findN key (n + 1) =
      .ok ((r.preference (r.partitioner.token key)).take (min (max n 1) r.size) ++ more) := by
  have hle : min (max n 1) r.size ≤ min (max (n + 1) 1) r.size := by omega
  obtain ⟨more, hmore⟩ := List.take_prefix_take_left
    (l := r.preference (r.partitioner.token key)) hle
  exact ⟨more, by rw [hr.findN_eq key (n + 1) hsize, hmore]⟩

/-- What a look-up on a reachable ring gives. -/
theorem findN_eq_take_preference {r : Ring μ} (hr : r.Reachable) (key : ByteArray) (n : Nat) :
    (∀ e, r.findN key n = .error e ↔ r.toList = [] ∧ e = .empty) ∧
      (∀ ms, r.findN key n = .ok ms ↔ r.toList ≠ [] ∧
        ms = (r.preference (r.partitioner.token key)).take (min (max n 1) r.size)) ∧
      (∀ ms, r.findN key n = .ok ms →
        (ms.map Member.key).Nodup ∧ ms.length = min (max n 1) r.size ∧
          (∃ more, r.findN key (n + 1) = .ok (ms ++ more)) ∧
          ∃ m, ms.head? = some m ∧ r.find key = .ok m) ∧
      ∀ e, r.find key = .error e ↔ r.toList = [] ∧ e = .empty := by
  have hr := hr.sound
  refine ⟨fun e => hr.findN_eq_error_iff, fun ms => hr.findN_eq_ok_iff, ?_,
    fun e => hr.find_eq_error_iff⟩
  intro ms hms
  obtain ⟨hne, rfl⟩ := hr.findN_eq_ok_iff.mp hms
  have hsize : r.size ≠ 0 := fun h => hne (toList_eq_nil_iff.mpr h)
  obtain ⟨m, hhead, hfind⟩ := hr.find_eq key hsize
  refine ⟨?_, ?_, hr.exists_findN_succ key n hsize, m, ?_, hfind⟩
  · rw [List.map_take]
    exact (hr.nodup_map_key_preference _).sublist (List.take_sublist ..)
  · rw [List.length_take, length_preference]
    omega
  · rw [List.head?_take, if_neg (by omega), hhead]

/-- All virtual nodes stand on one token, so that the keys decide, of which the empty one comes
first. -/
theorem findN_crowded : ∃ empty : Ring String, new crowded 2 = .ok empty ∧
    (empty.run [.add "b", .add ""]).findN "k".toUTF8 5 = .ok ["", "b"] := by
  refine ⟨⟨crowded, 2, by decide, ∅, ∅⟩, rfl, ?_⟩
  have hreachable :
      ((⟨crowded, 2, by decide, ∅, ∅⟩ : Ring String).run [.add "b", .add ""]).Reachable :=
    ⟨crowded, 2, _, _, rfl, rfl⟩
  rw [(findN_eq_take_preference hreachable "k".toUTF8 5).2.1, preference,
    List.mergeSort_of_pairwise (by decide)]
  decide

end RingRouting.Ring
