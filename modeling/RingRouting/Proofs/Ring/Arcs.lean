import Mathlib.Data.Set.Card
import Mathlib.Order.Interval.Finset.Nat
import RingRouting.Proofs.Ring.Churn
import RingRouting.Ring.Ownership

/-!
# Arcs and the walks that end on them

The arc of a member is counted along the virtual nodes, and what it is meant to count are the tokens
from which a walk meets the member first. Past the first virtual node both go from one virtual node
to the next: the tokens beyond one of them, up to the next, are those from which a walk meets the
next one. The tokens that are left, beyond the last and up to the first, are those from which a walk
meets the first. Only where all virtual nodes stand on one token and there are several of them, the
distance from the last to the first is none instead of the whole circle, and all arcs are empty.
Main statement: `arcSums_eq_ncard_catchment`.
-/

namespace RingRouting

/-! ## Counting tokens -/

namespace Token

theorem toNat_injective : Function.Injective fun t : Token => t.val.toNat := by
  rintro ⟨a⟩ ⟨b⟩ h
  exact congrArg Token.mk (UInt64.toNat_inj.mp h)

instance : Finite Token :=
  Finite.of_injective (fun t => Fin.mk t.val.toNat t.val.toNat_lt) fun _ _ h =>
    toNat_injective (Fin.mk.inj h)

/-- Tokens can be counted as the numbers that they stand for. -/
theorem ncard_toNat_mem {s : Finset Nat} (hs : ∀ n ∈ s, n < UInt64.size) :
    {t : Token | t.val.toNat ∈ s}.ncard = s.card := by
  rw [← Set.ncard_coe_finset, ← Set.ncard_image_of_injective _ toNat_injective]
  congr 1
  ext n
  constructor
  · rintro ⟨t, ht, rfl⟩
    exact ht
  · intro hn
    have hval : (UInt64.ofNat n).toNat = n := UInt64.toNat_ofNat_of_lt' (hs n hn)
    exact ⟨⟨UInt64.ofNat n⟩, show (UInt64.ofNat n).toNat ∈ s from hval.symm ▸ hn, hval⟩

/-- The tokens beyond `a` up to `b`. -/
theorem ncard_between (a : Nat) {b : Nat} (hb : b < UInt64.size) :
    {t : Token | a < t.val.toNat ∧ t.val.toNat ≤ b}.ncard = b - a := by
  have hcount := ncard_toNat_mem (s := Finset.Ioc a b) fun n hn =>
    Nat.lt_of_le_of_lt (Finset.mem_Ioc.mp hn).2 hb
  simpa only [Finset.mem_Ioc, Nat.card_Ioc] using hcount

theorem card_eq : Nat.card Token = UInt64.size := by
  have hcount := ncard_toNat_mem (s := Finset.range UInt64.size) fun n hn => Finset.mem_range.mp hn
  have hall : {t : Token | t.val.toNat ∈ Finset.range UInt64.size} = Set.univ :=
    Set.eq_univ_of_forall fun t => Finset.mem_range.mpr t.val.toNat_lt
  rwa [hall, Set.ncard_univ, Finset.card_range] at hcount

/-- All other tokens. -/
theorem ncard_not_between (a : Nat) {b : Nat} (hb : b < UInt64.size) :
    {t : Token | ¬(a < t.val.toNat ∧ t.val.toNat ≤ b)}.ncard = UInt64.size - (b - a) := by
  rw [← card_eq, ← ncard_between a hb, ← Set.ncard_compl]
  rfl

end Token

namespace Ring

variable {μ : Type} {r : Ring μ} {key : String} {first : VirtualNode} {rest : List VirtualNode}

/-! ## What a walk meets first -/

/-- The tokens from which a clockwise walk meets a virtual node of a member first. -/
def catchment (r : Ring μ) (key : String) : Set Token :=
  {t | (r.walk t).head?.map (·.member) = some key}

/-- The first virtual node at a token or beyond it. -/
def atOrBeyond? (t : Token) (vs : List VirtualNode) : Option VirtualNode :=
  vs.find? fun v => t.val.toNat ≤ v.token.val.toNat

/-- A walk begins at the first virtual node at or beyond the token, or else at the first of all. -/
theorem head?_walk (r : Ring μ) (t : Token) :
    (r.walk t).head? = (atOrBeyond? t r.vnodes.toList).or r.vnodes.toList.head? := by
  have hafter (v : VirtualNode) :
      (!v.before ⟨t, ""⟩) = decide (t.val.toNat ≤ v.token.val.toNat) := by
    rw [Bool.eq_iff_iff, Bool.not_eq_true', ← Bool.not_eq_true, before_probe_iff,
      decide_eq_true_iff]
    omega
  rw [walk, List.head?_append, List.head?_filter, List.head?_filter]
  simp only [hafter]
  show (atOrBeyond? t _).or _ = _
  cases hfound : atOrBeyond? t r.vnodes.toList with
  | some v => rfl
  | none =>
    -- everything stands before the token
    rw [Option.none_or, Option.none_or]
    cases hlist : r.vnodes.toList with
    | nil => rfl
    | cons first rest =>
      rw [hlist] at hfound
      have hbefore := List.find?_eq_none.mp hfound first (List.mem_cons_self ..)
      rw [decide_eq_true_iff, Nat.not_le, ← before_probe_iff] at hbefore
      exact List.find?_cons_of_pos hbefore

/-- Beyond a token there is nothing if all tokens are below it. -/
theorem atOrBeyond?_eq_none_iff {t : Token} {vs : List VirtualNode} :
    atOrBeyond? t vs = none ↔ ∀ v ∈ vs, v.token.val.toNat < t.val.toNat := by
  simp [atOrBeyond?]

theorem exists_of_atOrBeyond? {t : Token} {vs : List VirtualNode} {v : VirtualNode}
    (h : atOrBeyond? t vs = some v) : v ∈ vs ∧ t.val.toNat ≤ v.token.val.toNat := by
  unfold atOrBeyond? at h
  have hfound := List.find?_some h
  exact ⟨List.mem_of_find?_eq_some h, of_decide_eq_true hfound⟩

theorem atOrBeyond?_cons (t : Token) (v : VirtualNode) (vs : List VirtualNode) :
    atOrBeyond? t (v :: vs) =
      if t.val.toNat ≤ v.token.val.toNat then some v else atOrBeyond? t vs := by
  rw [atOrBeyond?, List.find?_cons]
  split <;> simp_all [atOrBeyond?]

/-! ## Arcs of one member -/

/-- How long the arcs of one member are together. -/
def lengthFor (key : String) (arcs : List (String × Nat)) : Nat :=
  (arcs.filter (·.1 == key)).foldr (fun (_, n) total => n + total) 0

theorem lengthFor_cons (key owner : String) (n : Nat) (arcs : List (String × Nat)) :
    lengthFor key ((owner, n) :: arcs) = (if owner = key then n else 0) + lengthFor key arcs := by
  rw [lengthFor, List.filter_cons]
  by_cases h : owner = key <;> simp [h, lengthFor]

/-- No virtual node stands before the one that it follows. -/
def Clockwise (vs : List VirtualNode) : Prop :=
  vs.Pairwise (·.token.val.toNat ≤ ·.token.val.toNat)

/-- The virtual nodes of a ring are in the order of their tokens. -/
theorem clockwise_of_toList (h : r.vnodes.toList = first :: rest) : Clockwise (first :: rest) := by
  rw [← h]
  refine Std.ExtTreeSet.ordered_toList.imp fun hlt => ?_
  rcases compare_eq_lt_iff.mp hlt with hlt | ⟨heq, -⟩
  · exact Nat.le_of_lt hlt
  · exact Nat.le_of_eq heq

theorem mem_vnodes_iff_mem_cons (h : r.vnodes.toList = first :: rest) {v : VirtualNode} :
    v ∈ r.vnodes ↔ v ∈ first :: rest := by
  rw [← Std.ExtTreeSet.mem_toList, h]

theorem ncard_union {s s' : Set Token} (h : ∀ t ∈ s, t ∉ s') :
    (s ∪ s').ncard = s.ncard + s'.ncard :=
  Set.ncard_union_eq (Set.disjoint_left.mpr h) s.toFinite s'.toFinite

/-- Beyond a virtual node, the arcs of a member are the tokens from which a search meets the member
first. -/
theorem ncard_beyond (key : String) {vs : List VirtualNode} {v : VirtualNode}
    (h : Clockwise (v :: vs)) :
    {t : Token | v.token.val.toNat < t.val.toNat ∧
      (atOrBeyond? t vs).map (·.member) = some key}.ncard = lengthFor key (arcsFrom v vs) := by
  induction vs generalizing v with
  | nil =>
    rw [show {t : Token | _} = (∅ : Set Token) from Set.eq_empty_of_forall_notMem fun t ht =>
      nomatch ht.2]
    exact Set.ncard_empty _
  | cons w vs ih =>
    obtain ⟨hv, hw⟩ := List.pairwise_cons.mp h
    have hle : v.token.val.toNat ≤ w.token.val.toNat := hv w (List.mem_cons_self ..)
    have hsplit : {t : Token | v.token.val.toNat < t.val.toNat ∧
        (atOrBeyond? t (w :: vs)).map (·.member) = some key} =
        {t | (v.token.val.toNat < t.val.toNat ∧ t.val.toNat ≤ w.token.val.toNat) ∧ w.member = key} ∪
        {t | w.token.val.toNat < t.val.toNat ∧ (atOrBeyond? t vs).map (·.member) = some key} := by
      ext t
      simp only [Set.mem_ofPred_eq, Set.mem_union, atOrBeyond?_cons]
      by_cases ht : t.val.toNat ≤ w.token.val.toNat
      · simp [ht, Nat.not_lt.mpr ht]
      · have hvt : v.token.val.toNat < t.val.toNat := by omega
        simp [ht, hvt, Nat.lt_of_not_le ht]
    have hown : {t : Token | (v.token.val.toNat < t.val.toNat ∧ t.val.toNat ≤ w.token.val.toNat) ∧
        w.member = key}.ncard = if w.member = key then (v.distance w).toNat else 0 := by
      split
      next hkey =>
        simp only [hkey, and_true]
        rw [Token.ncard_between _ w.token.val.toNat_lt, VirtualNode.distance, toNat_distance,
          if_pos hle]
      next hkey =>
        simp only [hkey, and_false]
        exact Set.ncard_empty _
    rw [hsplit, ncard_union fun t ht ht' => by have := ht.1.2; have := ht'.1; omega, hown, ih hw,
      arcsFrom, lengthFor_cons]

/-! ## The whole circle -/

/-- The last virtual node in the order of the ring. -/
def lastOf (first : VirtualNode) (rest : List VirtualNode) : VirtualNode :=
  (first :: rest).getLast (List.cons_ne_nil first rest)

/-- How far the first virtual node lies beyond the last one. One that is alone lies a whole circle
beyond itself. -/
def firstArc (first : VirtualNode) : List VirtualNode → Nat
  | [] => circle
  | v :: rest => ((lastOf first (v :: rest)).distance first).toNat

/-- The arc of the first virtual node reaches back to the last one. -/
theorem arcs_eq (h : r.vnodes.toList = first :: rest) :
    r.arcs = (first.member, firstArc first rest) :: arcsFrom first rest := by
  rw [arcs, h]
  cases rest <;> rfl

/-- A member has the arcs of its virtual nodes. -/
theorem arc_eq (h : r.vnodes.toList = first :: rest) (key : String) :
    r.arc key = (if first.member = key then firstArc first rest else 0) +
      lengthFor key (arcsFrom first rest) := by
  rw [← lengthFor_cons, ← arcs_eq h]
  rfl

/-- No token is beyond the last one. -/
theorem Clockwise.le_lastOf (h : Clockwise (first :: rest)) :
    ∀ v ∈ first :: rest, v.token.val.toNat ≤ (lastOf first rest).token.val.toNat := by
  intro v hv
  rw [← List.dropLast_append_getLast (List.cons_ne_nil first rest)] at h hv
  rcases List.mem_append.mp hv with hv | hv
  · exact (List.pairwise_append.mp h).2.2 v hv _ (List.mem_cons_self ..)
  · rw [List.mem_singleton.mp hv]
    exact Nat.le_refl _

theorem Clockwise.le_lastOf_of_atOrBeyond? (h : Clockwise (first :: rest)) {t : Token}
    {key : String} (hfound : (atOrBeyond? t rest).map (·.member) = some key) :
    t.val.toNat ≤ (lastOf first rest).token.val.toNat := by
  obtain ⟨v, hv, -⟩ := Option.map_eq_some_iff.mp hfound
  obtain ⟨hmem, hle⟩ := exists_of_atOrBeyond? hv
  exact Nat.le_trans hle (h.le_lastOf v (List.mem_cons_of_mem _ hmem))

/-- A walk meets the first virtual node first if it starts beyond the last one, or not beyond the
first. -/
theorem mem_catchment_iff (h : r.vnodes.toList = first :: rest) {t : Token} : t ∈ r.catchment key ↔
    (¬(first.token.val.toNat < t.val.toNat ∧ t.val.toNat ≤ (lastOf first rest).token.val.toNat) ∧
        first.member = key) ∨
      (first.token.val.toNat < t.val.toNat ∧ (atOrBeyond? t rest).map (·.member) = some key) := by
  have hle := (clockwise_of_toList h).le_lastOf
  show (r.walk t).head?.map (·.member) = some key ↔ _
  rw [head?_walk, h, atOrBeyond?_cons, List.head?_cons]
  split
  next ht => simp [Nat.not_lt.mpr ht]
  next ht =>
    cases hfound : atOrBeyond? t rest with
    | some v =>
      obtain ⟨hmem, hv⟩ := exists_of_atOrBeyond? hfound
      have hlast := hle v (List.mem_cons_of_mem _ hmem)
      simp [Nat.lt_of_not_le ht, Nat.le_trans hv hlast]
    | none =>
      -- the last one is passed with all the others
      have hlast : (lastOf first rest).token.val.toNat < t.val.toNat := by
        rcases List.mem_cons.mp (List.getLast_mem (List.cons_ne_nil first rest)) with heq | hmem
        · rw [lastOf, heq]
          exact Nat.lt_of_not_le ht
        · exact atOrBeyond?_eq_none_iff.mp hfound _ hmem
      simp [Nat.not_le.mpr hlast]

/-- How many tokens lead to a member. To the first virtual node leads what the others leave of the
circle. -/
theorem ncard_catchment (h : r.vnodes.toList = first :: rest) (key : String) :
    (r.catchment key).ncard = (if first.member = key then
        circle - ((lastOf first rest).token.val.toNat - first.token.val.toNat) else 0) +
      lengthFor key (arcsFrom first rest) := by
  have hclockwise := clockwise_of_toList h
  have hsplit : r.catchment key =
      {t | ¬(first.token.val.toNat < t.val.toNat ∧
        t.val.toNat ≤ (lastOf first rest).token.val.toNat) ∧
        first.member = key} ∪
      {t | first.token.val.toNat < t.val.toNat ∧ (atOrBeyond? t rest).map (·.member) = some key} :=
    Set.ext fun t => mem_catchment_iff h
  have hfirst : {t : Token | ¬(first.token.val.toNat < t.val.toNat ∧
      t.val.toNat ≤ (lastOf first rest).token.val.toNat) ∧ first.member = key}.ncard =
      if first.member = key then
        circle - ((lastOf first rest).token.val.toNat - first.token.val.toNat) else 0 := by
    split
    next hkey =>
      simp only [hkey, and_true]
      exact Token.ncard_not_between _ (lastOf first rest).token.val.toNat_lt
    next hkey =>
      simp only [hkey, and_false]
      exact Set.ncard_empty _
  rw [hsplit, ncard_union ?_, hfirst, ncard_beyond key hclockwise]
  rintro t ⟨hnot, -⟩ ⟨hbeyond, hfound⟩
  exact hnot ⟨hbeyond, hclockwise.le_lastOf_of_atOrBeyond? hfound⟩

/-! ## Rings whose virtual nodes do not all coincide -/

/-- There is one virtual node alone, or two of them stand on different tokens. -/
def Scattered (r : Ring μ) : Prop :=
  r.vnodeCount = 1 ∨ ∃ v ∈ r.vnodes, ∃ w ∈ r.vnodes, v.token ≠ w.token

/-- A ring is scattered if it has one virtual node, or its first and last tokens differ. -/
theorem scattered_iff (h : r.vnodes.toList = first :: rest) :
    r.Scattered ↔ rest = [] ∨ first.token.val.toNat < (lastOf first rest).token.val.toNat := by
  have hclockwise := clockwise_of_toList h
  have hcount : r.vnodeCount = 1 ↔ rest = [] := by
    rw [vnodeCount, ← Std.ExtTreeSet.length_toList, h]
    simp
  rw [Scattered, hcount]
  refine or_congr_right ⟨?_, fun hlt => ?_⟩
  · rintro ⟨v, hv, w, hw, hne⟩
    have hle (u : VirtualNode) (hu : u ∈ r.vnodes) : first.token.val.toNat ≤ u.token.val.toNat ∧
        u.token.val.toNat ≤ (lastOf first rest).token.val.toNat := by
      have hu := (mem_vnodes_iff_mem_cons h).mp hu
      refine ⟨?_, hclockwise.le_lastOf u hu⟩
      rcases List.mem_cons.mp hu with rfl | hu
      · exact Nat.le_refl _
      · exact List.rel_of_pairwise_cons hclockwise hu
    have hdiffer : v.token.val.toNat ≠ w.token.val.toNat :=
      fun heq => hne (Token.toNat_injective heq)
    have := hle v hv
    have := hle w hw
    omega
  · refine ⟨first, (mem_vnodes_iff_mem_cons h).mpr (List.mem_cons_self ..), lastOf first rest,
      (mem_vnodes_iff_mem_cons h).mpr (List.getLast_mem _), fun heq => ?_⟩
    rw [heq] at hlt
    exact Nat.lt_irrefl _ hlt

/-- On such a ring the first arc is what the others leave of the circle. -/
theorem firstArc_eq (h : rest = [] ∨ first.token.val.toNat < (lastOf first rest).token.val.toNat) :
    firstArc first rest = circle -
      ((lastOf first rest).token.val.toNat - first.token.val.toNat) := by
  cases rest with
  | nil => simp [firstArc, lastOf]
  | cons v rest =>
    have hlt := h.resolve_left (List.cons_ne_nil v rest)
    have hlast := (lastOf first (v :: rest)).token.val.toNat_lt
    rw [firstArc, VirtualNode.distance, toNat_distance, if_neg (Nat.not_le.mpr hlt), circle]
    simp only [UInt64.size] at hlast ⊢
    omega

/-- The arc of a member is the number of tokens from which a walk meets the member first. -/
theorem arc_eq_ncard (h : r.vnodes.toList = first :: rest) (hscattered : r.Scattered)
    (key : String) :
    r.arc key = (r.catchment key).ncard := by
  rw [arc_eq h, ncard_catchment h, firstArc_eq ((scattered_iff h).mp hscattered)]

/-- Where all virtual nodes stand on one token, walks from everywhere meet the same member first. -/
theorem catchment_eq_univ (h : r.vnodes.toList = first :: rest) (hscattered : ¬r.Scattered) :
    r.catchment first.member = Set.univ := by
  obtain ⟨-, hlast⟩ := not_or.mp (fun hcase => hscattered ((scattered_iff h).mpr hcase))
  refine Set.eq_univ_of_forall fun t => (mem_catchment_iff h).mpr (.inl ⟨?_, rfl⟩)
  omega

/-- Still the arcs of all members are empty, that of the one that all walks meet first too. -/
theorem arc_eq_zero (h : r.vnodes.toList = first :: rest) (hscattered : ¬r.Scattered)
    (key : String) :
    r.arc key = 0 := by
  obtain ⟨hrest, hlast⟩ := not_or.mp (fun hcase => hscattered ((scattered_iff h).mpr hcase))
  have hclockwise := clockwise_of_toList h
  have hnobody : {t : Token | first.token.val.toNat < t.val.toNat ∧
      (atOrBeyond? t rest).map (·.member) = some key} = ∅ := by
    refine Set.eq_empty_of_forall_notMem fun t ht => hlast ?_
    exact Nat.lt_of_lt_of_le ht.1 (hclockwise.le_lastOf_of_atOrBeyond? ht.2)
  have hfirst : firstArc first rest = 0 := by
    obtain ⟨v, vs, rfl⟩ := List.exists_cons_of_ne_nil hrest
    have hle := hclockwise.le_lastOf first (List.mem_cons_self ..)
    rw [firstArc, VirtualNode.distance, toNat_distance, if_pos (Nat.not_lt.mp hlast)]
    omega
  rw [arc_eq h, hfirst, ← ncard_beyond key hclockwise, hnobody, Set.ncard_empty, ite_self]

/-! ## All members -/

/-- Every walk meets one member first, so the catchments of members divide the circle. -/
theorem sum_ncard_catchment (r : Ring μ) {keys : List String} (hnodup : keys.Nodup)
    (hall : ∀ t, ∃ key ∈ keys, t ∈ r.catchment key) :
    (keys.map fun key => (r.catchment key).ncard).sum = circle := by
  have hsum : (keys.map fun key => (r.catchment key).ncard).sum =
      {t | ∃ key ∈ keys, t ∈ r.catchment key}.ncard := by
    clear hall
    induction keys with
    | nil => simp
    | cons key keys ih =>
      obtain ⟨hkey, hkeys⟩ := List.nodup_cons.mp hnodup
      have hsplit : {t | ∃ other ∈ key :: keys, t ∈ r.catchment other} =
          r.catchment key ∪ {t | ∃ other ∈ keys, t ∈ r.catchment other} :=
        Set.ext fun t => by simp
      rw [List.map_cons, List.sum_cons, ih hkeys, hsplit, ncard_union]
      rintro t ht ⟨other, hother, ht'⟩
      exact hkey (Option.some.inj (ht.symm.trans ht') ▸ hother)
  rw [hsum, show {t | ∃ key ∈ keys, t ∈ r.catchment key} = Set.univ from Set.eq_univ_of_forall hall,
    Set.ncard_univ, Token.card_eq, circle]

variable [Member μ]

/-- A ring with members has a first virtual node. -/
theorem Sound.exists_first (hr : r.Sound) (hsize : r.size ≠ 0) :
    ∃ first rest, r.vnodes.toList = first :: rest := by
  refine List.exists_cons_of_ne_nil fun hnil => ?_
  have hnone (v : VirtualNode) : v ∉ r.vnodes := by
    rw [← Std.ExtTreeSet.mem_toList, hnil]
    exact List.not_mem_nil
  obtain ⟨m, hm⟩ := List.exists_mem_of_ne_nil _ (toList_eq_nil_iff.not.mpr hsize)
  have hget := hr.mem_toList_iff.mp hm
  obtain ⟨v, hv⟩ := r.exists_mem_placement (Member.key m)
  obtain hmember := member_eq_of_mem_placement hv
  refine hnone v ((hr.mem_vnodes v).mpr ⟨?_, hmember ▸ hv⟩)
  rw [hmember, contains_eq_isSome, hget]
  rfl

/-- Every token leads to a member. -/
theorem Sound.exists_mem_catchment (hr : r.Sound) (hsize : r.size ≠ 0) (t : Token) :
    ∃ key ∈ r.members.keys, t ∈ r.catchment key := by
  obtain ⟨first, rest, h⟩ := hr.exists_first hsize
  have hmem : first ∈ r.vnodes := (mem_vnodes_iff_mem_cons h).mpr (List.mem_cons_self ..)
  have hne : r.walk t ≠ [] := List.ne_nil_of_mem (mem_walk.mpr hmem)
  obtain ⟨v, vs, hwalk⟩ := List.exists_cons_of_ne_nil hne
  have hfirst : (r.walk t).head?.map (·.member) = some v.member := by rw [hwalk]; rfl
  refine ⟨v.member, ?_, hfirst⟩
  rw [Std.ExtTreeMap.mem_keys]
  exact hr.mem_map_member_walk.mp (List.mem_map_of_mem (hwalk ▸ List.mem_cons_self ..))

/-- A key goes to the member from whose catchment it comes. -/
theorem Sound.find_eq_ok_iff_mem_catchment (hr : r.Sound) {key : ByteArray} {m : μ} :
    r.find key = .ok m ↔
      r.get? (Member.key m) = some m ∧ r.partitioner.token key ∈ r.catchment (Member.key m) := by
  have hfirst : r.partitioner.token key ∈ r.catchment (Member.key m) ↔
      (r.preference (r.partitioner.token key)).head?.map Member.key = some (Member.key m) := by
    rw [← List.head?_map, ← hr.eraseDups_walk]
    show (r.walk _).head?.map (·.member) = _ ↔ _
    rw [← List.head?_map]
    cases (r.walk (r.partitioner.token key)).map (·.member) with
    | nil => rfl
    | cons a as => rw [List.eraseDups_cons, List.head?_cons, List.head?_cons]
  rw [hr.find_eq_ok_iff, hr.ranking_eq, hfirst, ← hr.mem_toList_iff]
  constructor
  · intro hhead
    exact ⟨mem_preference.mp (List.mem_of_head? hhead), by rw [hhead]; rfl⟩
  · rintro ⟨hmem, hkey⟩
    obtain ⟨m', hhead, hsame⟩ := Option.map_eq_some_iff.mp hkey
    have hget' := hr.mem_toList_iff.mp (mem_preference.mp (List.mem_of_head? hhead))
    rw [hsame, hr.mem_toList_iff.mp hmem] at hget'
    rw [hhead, hget']

/-- What is summed up for a member is the number of tokens from which a walk meets the member first,
and all of it together is the whole circle, unless there are several virtual nodes and all of them
stand on one token. Then nothing is summed up for any member, and one of them is met first from
everywhere. -/
theorem arcSums_eq_ncard_catchment (hr : r.Reachable) (hsize : r.size ≠ 0) :
    (r.Scattered → (∀ key, r.arcSums.getD key 0 = (r.catchment key).ncard) ∧
      (r.members.keys.map fun key => r.arcSums.getD key 0).sum = circle) ∧
    (¬r.Scattered → (∀ key, r.arcSums.getD key 0 = 0) ∧
      ∃ key, r.contains key ∧ r.catchment key = Set.univ) ∧
    ∀ (key : ByteArray) m, r.find key = .ok m ↔
      r.get? (Member.key m) = some m ∧ r.partitioner.token key ∈ r.catchment (Member.key m) := by
  have hr := hr.sound
  obtain ⟨first, rest, h⟩ := hr.exists_first hsize
  refine ⟨fun hscattered => ?_, fun hscattered => ?_, fun key m => hr.find_eq_ok_iff_mem_catchment⟩
  · have harc (key : String) : r.arcSums.getD key 0 = (r.catchment key).ncard := by
      rw [getD_arcSums, arc_eq_ncard h hscattered]
    refine ⟨harc, ?_⟩
    simp only [harc]
    exact r.sum_ncard_catchment Std.ExtTreeMap.nodup_keys (hr.exists_mem_catchment hsize)
  · refine ⟨fun key => (r.getD_arcSums key).trans (arc_eq_zero h hscattered key), first.member, ?_,
      catchment_eq_univ h hscattered⟩
    exact ((hr.mem_vnodes first).mp ((mem_vnodes_iff_mem_cons h).mpr (List.mem_cons_self ..))).1

/-- Two members of one virtual node each. What lies between them goes to the one, and all else to
the other. -/
theorem arcSums_positional : ∃ empty : Ring String, new positional 1 = .ok empty ∧
    let r := empty.run [.add "a", .add "b"]
    (r.catchment "b").ncard = 256 ∧ (r.catchment "a").ncard = circle - 256 := by
  refine ⟨⟨positional, 1, by decide, ∅, ∅⟩, rfl, ?_⟩
  intro r
  obtain ⟨hscattered, -⟩ :=
    arcSums_eq_ncard_catchment (r := r) ⟨positional, 1, _, _, rfl, rfl⟩ (by decide)
  obtain ⟨harc, -⟩ := hscattered (.inr ⟨VirtualNode.ofIndex positional "a" 0, by decide +kernel,
    VirtualNode.ofIndex positional "b" 0, by decide +kernel, by decide +kernel⟩)
  rw [← harc, ← harc]
  decide +kernel

/-- Two members with all their virtual nodes on one token. Look-ups go to the first of them from
everywhere, and no token is summed up for either. -/
theorem arcSums_crowded_eq_zero : ∃ empty : Ring String, new crowded 2 = .ok empty ∧
    let r := empty.run [.add "a", .add "b"]
    r.arcSums.getD "a" 0 = 0 ∧ (r.catchment "a").ncard = circle ∧
      (r.members.keys.map fun key => r.arcSums.getD key 0).sum = 0 := by
  refine ⟨⟨crowded, 2, by decide, ∅, ∅⟩, rfl, ?_⟩
  intro r
  have hlist : r.vnodes.toList = [⟨⟨7⟩, "a"⟩, ⟨⟨7⟩, "b"⟩] := by decide +kernel
  have hscattered : ¬r.Scattered := by
    rw [scattered_iff hlist]
    decide +kernel
  refine ⟨by decide +kernel, ?_, by decide +kernel⟩
  rw [catchment_eq_univ hlist hscattered, Set.ncard_univ, Token.card_eq, circle]

end Ring

end RingRouting
