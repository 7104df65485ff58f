import RingRouting.Proofs.Ring.Preference

/-!
# Members come and go

How far a member stands from a key depends on no other member. So all rings with one partitioner and
one number of virtual nodes rank the members that they share in the same order: a member that goes
is struck from the ranking, one that comes is put in, and the others keep their places. Main
statement: `minimal_disruption`.
-/

namespace RingRouting.Ring

variable {μ : Type}

/-- The first `n` owners of `key`, at least one of them. A ring without members has none. -/
def ownersOf (r : Ring μ) (key : ByteArray) (n : Nat) : List μ :=
  match r.findN key n with
  | .ok ms => ms
  | .error _ => []

/-- All members, in the order in which they own `key`. -/
def ranking (r : Ring μ) (key : ByteArray) : List μ :=
  r.ownersOf key r.size

/-- The order of two members depends only on the partitioner and the number of virtual nodes. -/
theorem prefer_congr {ν : Type} {r : Ring μ} {r' : Ring ν} (hp : r'.partitioner = r.partitioner)
    (hf : r'.factor = r.factor) (t : Token) : r'.prefer t = r.prefer t := by
  have hreach : r'.reach t = r.reach t := by
    funext key
    rw [reach, reach, placement_congr hp hf]
  rw [prefer, prefer, hreach]

variable [Member μ]

/-- The first owners of a key are the first members in the order of its token. -/
theorem Sound.ownersOf_eq {r : Ring μ} (hr : r.Sound) (key : ByteArray) (n : Nat) :
    r.ownersOf key n = (r.preference (r.partitioner.token key)).take (max n 1) := by
  have hlength := r.length_preference (r.partitioner.token key)
  unfold ownersOf
  by_cases hsize : r.size = 0
  · rw [findN_eq_empty key n hsize, List.eq_nil_of_length_eq_zero (hlength.trans hsize),
      List.take_nil]
  · rw [hr.findN_eq key n hsize, ← hlength]
    show (r.preference _).take (min _ _) = _
    rw [← List.take_eq_take_min]

/-- All members by that order are the ranking of the key. -/
theorem Sound.ranking_eq {r : Ring μ} (hr : r.Sound) (key : ByteArray) :
    r.ranking key = r.preference (r.partitioner.token key) := by
  rw [ranking, hr.ownersOf_eq, List.take_of_length_le]
  rw [r.length_preference]
  omega

/-- A look-up finds the first of the ranking. -/
theorem Sound.find_eq_ok_iff {r : Ring μ} (hr : r.Sound) {key : ByteArray} {m : μ} :
    r.find key = .ok m ↔ (r.ranking key).head? = some m := by
  rw [hr.ranking_eq]
  by_cases hsize : r.size = 0
  · have hlength := r.length_preference (r.partitioner.token key)
    rw [find_eq_empty key hsize, List.eq_nil_of_length_eq_zero (hlength.trans hsize)]
    simp
  · obtain ⟨first, hhead, hfind⟩ := hr.find_eq key hsize
    rw [hhead, hfind, Except.ok.injEq, Option.some.injEq]

/-! ## Rings that share members -/

theorem Sound.pairwise_map_key_preference {r : Ring μ} (hr : r.Sound) (t : Token) :
    ((r.preference t).map Member.key).Pairwise (r.prefer t · · = .lt) :=
  List.pairwise_map.mpr (hr.pairwise_preference t)

/-- Two rings rank the keys that they share in the same order. -/
theorem Sound.filter_ranking_eq {r r' : Ring μ} (hr : r.Sound) (hr' : r'.Sound)
    (hp : r'.partitioner = r.partitioner) (hf : r'.factor = r.factor) (key : ByteArray) :
    ((r.ranking key).map Member.key).filter r'.contains =
      ((r'.ranking key).map Member.key).filter r.contains := by
  rw [hr.ranking_eq, hr'.ranking_eq, hp]
  have hsorted' := hr'.pairwise_map_key_preference (r.partitioner.token key)
  rw [prefer_congr hp hf] at hsorted'
  refine eq_of_pairwise_prefer ((hr.pairwise_map_key_preference _).filter _) (hsorted'.filter _)
    fun other => ?_
  rw [List.mem_filter, List.mem_filter, hr.mem_map_key_preference, hr'.mem_map_key_preference]
  exact and_comm

/-- A ring that holds some of the members of another ranks these as the other does. -/
theorem Sound.ranking_eq_filter {r r' : Ring μ} (hr : r.Sound) (hr' : r'.Sound)
    (hp : r'.partitioner = r.partitioner) (hf : r'.factor = r.factor)
    (hsub : ∀ other m, r'.get? other = some m → r.get? other = some m) (key : ByteArray) :
    r'.ranking key = (r.ranking key).filter fun m => r'.contains (Member.key m) := by
  rw [hr.ranking_eq, hr'.ranking_eq, hp]
  have hsorted' := hr'.pairwise_preference (r.partitioner.token key)
  rw [prefer_congr hp hf] at hsorted'
  refine eq_of_pairwise_prefer hsorted' ((hr.pairwise_preference _).filter _) fun m => ?_
  rw [List.mem_filter, mem_preference, mem_preference, hr.mem_toList_iff, hr'.mem_toList_iff,
    contains_eq_isSome]
  constructor
  · intro hm
    exact ⟨hsub _ m hm, by rw [hm]; rfl⟩
  · intro h
    obtain ⟨hm, hc⟩ := h
    obtain ⟨m', hm'⟩ := Option.isSome_iff_exists.mp hc
    rw [hm', ← hsub _ m' hm', hm]

/-! ## Members that go -/

/-- The ring once the members under these keys were taken off, one after the other. -/
def without (r : Ring μ) (keys : List String) : Ring μ :=
  r.run (keys.map .removeKey)

theorem Sound.factor_without {r : Ring μ} (hr : r.Sound) (keys : List String) :
    (r.without keys).factor = r.factor := by
  rw [without, hr.factor_run]
  induction keys with
  | nil => rfl
  | cons key rest ih => exact ih

/-- Without some keys the members of all others stay. -/
theorem Sound.get?_without_eq_some_iff {r : Ring μ} (hr : r.Sound) (keys : List String)
    {other : String} {m : μ} :
    (r.without keys).get? other = some m ↔ other ∉ keys ∧ r.get? other = some m := by
  unfold without
  induction keys generalizing r with
  | nil => simp [Ring.run]
  | cons key rest ih =>
    have hstepped := hr.stepped (rfl : r.step (.removeKey key) = _)
    show ((r.step (.removeKey key)).run (rest.map .removeKey)).get? other = some m ↔ _
    rw [ih (hstepped.sound hr), hstepped.get?_eq_some_iff, List.mem_cons, Op.Frees]
    simp only [reduceCtorEq, false_and, false_or, not_or, @eq_comm _ other key]
    exact ⟨fun h => ⟨⟨h.2.2, h.1⟩, h.2.1⟩, fun h => ⟨h.1.2, h.2, h.1.1⟩⟩

/-- Members that go are struck from the ranking. -/
theorem Sound.ranking_without {r : Ring μ} (hr : r.Sound) (keys : List String) (key : ByteArray) :
    (r.without keys).ranking key = (r.ranking key).filter fun m => Member.key m ∉ keys := by
  have hr' : (r.without keys).Sound := hr.run _
  rw [hr.ranking_eq_filter hr' (hr.partitioner_run _) (hr.factor_without keys) fun other m hm =>
    ((hr.get?_without_eq_some_iff keys).mp hm).2]
  refine List.filter_congr fun m hm => ?_
  rw [hr.ranking_eq, mem_preference, hr.mem_toList_iff] at hm
  have hget : (r.without keys).contains (Member.key m) ↔ Member.key m ∉ keys := by
    rw [contains_eq_isSome, Option.isSome_iff_exists]
    simp [hr.get?_without_eq_some_iff, hm]
  rw [Bool.eq_iff_iff, hget, decide_eq_true_iff]

/-- The key moves to the first member of its old ranking that did not go. -/
theorem Sound.find_without_eq_ok_iff {r : Ring μ} (hr : r.Sound) (keys : List String)
    {key : ByteArray} {m : μ} :
    (r.without keys).find key = .ok m ↔ ∃ gone rest, r.ranking key = gone ++ m :: rest ∧
      (∀ g ∈ gone, Member.key g ∈ keys) ∧ Member.key m ∉ keys := by
  have hr' : (r.without keys).Sound := hr.run _
  rw [hr'.find_eq_ok_iff, hr.ranking_without, List.head?_filter, List.find?_eq_some_iff_append]
  simp only [decide_eq_true_eq, Bool.not_eq_true', decide_eq_false_iff_not, not_not]
  constructor
  · intro h
    obtain ⟨hm, gone, rest, heq, hgone⟩ := h
    exact ⟨gone, rest, heq, hgone, hm⟩
  · intro h
    obtain ⟨gone, rest, heq, hgone, hm⟩ := h
    exact ⟨hm, gone, rest, heq, hgone⟩

/-! ## A member that comes -/

/-- Where a list grows by one item, its first `c` items stay as they were or the item is put in
among them. Then the last of them falls out, if there were `c` already. -/
theorem take_insert {α : Type} (front back : List α) (x : α) (c : Nat) :
    let as := (front ++ back).take c
    let bs := (front ++ x :: back).take c
    (as.length = c ∧ bs = as) ∨
      (as.length < c ∧ ∃ front back, as = front ++ back ∧ bs = front ++ x :: back) ∨
      (as.length = c ∧ ∃ front back last, as = front ++ back ++ [last] ∧
        bs = front ++ x :: back) := by
  intro as bs
  by_cases hfront : c ≤ front.length
  · -- the item comes too late to count
    left
    have has : as = front.take c := List.take_append_of_le_length hfront
    have hbs : bs = front.take c := List.take_append_of_le_length hfront
    rw [hbs, has, List.length_take]
    exact ⟨by omega, rfl⟩
  · right
    obtain ⟨k, rfl⟩ : ∃ k, c = front.length + (k + 1) := ⟨c - front.length - 1, by omega⟩
    have has : as = front ++ back.take (k + 1) := List.take_length_add_append ..
    have hbs : bs = front ++ x :: back.take k := List.take_length_add_append ..
    rw [hbs, has, List.length_append, List.length_take]
    by_cases hback : back.length ≤ k
    · -- there is room for it
      left
      refine ⟨by omega, front, back, ?_, ?_⟩
      · rw [List.take_of_length_le (by omega)]
      · rw [List.take_of_length_le hback]
    · -- it takes the place of the last one
      right
      refine ⟨by omega, front, back.take k, back[k], ?_, rfl⟩
      rw [List.append_assoc, List.take_append_getElem]

/-- A new member is put somewhere into the ranking, which stays the same around it. -/
theorem Sound.exists_ranking_add {r r' : Ring μ} (hr : r.Sound) {x : μ} (hadd : r.Added x r')
    (key : ByteArray) :
    ∃ front back, r.ranking key = front ++ back ∧ r'.ranking key = front ++ x :: back := by
  have hr' := hr.add hadd
  have hold : ∀ other m, r.get? other = some m → r'.get? other = some m :=
    fun other m hm => (hadd.get?_eq_some_iff other).mpr (.inr hm)
  have hx : x ∈ r'.ranking key := by
    rw [hr'.ranking_eq, mem_preference, hr'.mem_toList_iff, hadd.get?_eq_some_iff]
    exact .inl ⟨rfl, rfl⟩
  obtain ⟨front, back, hsplit⟩ := List.append_of_mem hx
  refine ⟨front, back, ?_, hsplit⟩
  -- The old ranking is the new one without `x`, which occurs in it once.
  have hnodup := hr'.nodup_map_key_preference (r'.partitioner.token key)
  rw [← hr'.ranking_eq, hsplit, List.map_append, List.map_cons] at hnodup
  -- All other members of the new ring were members before.
  have hkept {m : μ} (hm : m ∈ r'.ranking key) (hne : Member.key x ≠ Member.key m) :
      r.contains (Member.key m) := by
    rw [hr'.ranking_eq, mem_preference, hr'.mem_toList_iff, hadd.get?_eq_some_iff] at hm
    rcases hm with ⟨-, heq⟩ | hm
    · exact absurd heq hne
    · rw [contains_eq_isSome, hm]
      rfl
  rw [hr'.ranking_eq_filter hr hadd.partitioner_eq.symm hadd.factor_eq.symm hold, hsplit,
    List.filter_append, List.filter_cons_of_neg (by simp [hadd.free])]
  obtain ⟨-, hback, hfront⟩ := List.nodup_append.mp hnodup
  congr 1
  · refine List.filter_eq_self.mpr fun m hm => hkept (by simp [hsplit, hm]) fun heq => ?_
    exact hfront _ (List.mem_map_of_mem hm) _ (List.mem_cons_self ..) heq.symm
  · refine List.filter_eq_self.mpr fun m hm => hkept (by simp [hsplit, hm]) fun heq => ?_
    exact (List.nodup_cons.mp hback).1 (heq ▸ List.mem_map_of_mem hm)

/-- The owners stay as they were, or the new member is put in among them. Where there were as many
as asked for, the last of them falls out for it. -/
theorem Sound.ownersOf_add {r r' : Ring μ} (hr : r.Sound) {x : μ} (hadd : r.Added x r')
    (key : ByteArray) (n : Nat) :
    ((r.ownersOf key n).length = max n 1 ∧ r'.ownersOf key n = r.ownersOf key n) ∨
      ((r.ownersOf key n).length < max n 1 ∧ ∃ front back,
        r.ownersOf key n = front ++ back ∧ r'.ownersOf key n = front ++ x :: back) ∨
      ((r.ownersOf key n).length = max n 1 ∧ ∃ front back last,
        r.ownersOf key n = front ++ back ++ [last] ∧ r'.ownersOf key n = front ++ x :: back) := by
  have hr' := hr.add hadd
  obtain ⟨front, back, hranking, hranking'⟩ := hr.exists_ranking_add hadd key
  rw [hr.ranking_eq] at hranking
  rw [hr'.ranking_eq] at hranking'
  rw [hr.ownersOf_eq, hr'.ownersOf_eq, hranking, hranking']
  exact take_insert front back x (max n 1)

/-- No more keys change their owners than must, whatever members come and go. -/
theorem minimal_disruption {r : Ring μ} (hr : r.Reachable) (key : ByteArray) :
    (∀ r' : Ring μ, r'.Reachable → r'.partitioner = r.partitioner → r'.factor = r.factor →
      ((r.ranking key).map Member.key).filter r'.contains =
        ((r'.ranking key).map Member.key).filter r.contains) ∧
      (∀ keys : List String,
        (r.without keys).ranking key = (r.ranking key).filter (fun m => Member.key m ∉ keys) ∧
        (∀ m, r.find key = .ok m → Member.key m ∉ keys → (r.without keys).find key = .ok m) ∧
        ∀ m, (r.without keys).find key = .ok m ↔ ∃ gone rest, r.ranking key = gone ++ m :: rest ∧
          (∀ g ∈ gone, Member.key g ∈ keys) ∧ Member.key m ∉ keys) ∧
      ∀ x r', r.add x = .ok r' → ∀ n,
        ((r.ownersOf key n).length = max n 1 ∧ r'.ownersOf key n = r.ownersOf key n) ∨
        ((r.ownersOf key n).length < max n 1 ∧ ∃ front back,
          r.ownersOf key n = front ++ back ∧ r'.ownersOf key n = front ++ x :: back) ∨
        ((r.ownersOf key n).length = max n 1 ∧ ∃ front back last,
          r.ownersOf key n = front ++ back ++ [last] ∧ r'.ownersOf key n = front ++ x :: back) := by
  have hr := hr.sound
  refine ⟨?_, fun keys => ⟨hr.ranking_without keys key, ?_, ?_⟩, ?_⟩
  · intro r' hr' hp hf
    exact hr.filter_ranking_eq hr'.sound hp hf key
  · -- the owner stands first in the old ranking, so that nobody is passed over for it
    intro m hm hkept
    obtain ⟨rest, hrest⟩ := List.head?_eq_some_iff.mp (hr.find_eq_ok_iff.mp hm)
    exact (hr.find_without_eq_ok_iff keys).mpr ⟨[], rest, hrest, by simp, hkept⟩
  · intro m
    exact hr.find_without_eq_ok_iff keys
  · intro x r' hadd n
    exact hr.ownersOf_add (added_of_add hadd) key n

/-- The owner of the key goes, and the key moves to the next member, on the same token. -/
theorem find_without_crowded : ∃ empty : Ring String, new crowded 2 = .ok empty ∧
    let r := empty.run [.add "c", .add "a", .add "b"]
    r.find "k".toUTF8 = .ok "a" ∧ (r.without ["x", "a"]).find "k".toUTF8 = .ok "b" := by
  refine ⟨⟨crowded, 2, by decide, ∅, ∅⟩, rfl, by decide, ?_⟩
  have hreachable :
      ((⟨crowded, 2, by decide, ∅, ∅⟩ : Ring String).run
        [.add "c", .add "a", .add "b"]).Reachable :=
    ⟨crowded, 2, _, _, rfl, rfl⟩
  obtain ⟨-, -, hfind⟩ := (minimal_disruption hreachable "k".toUTF8).2.1 ["x", "a"]
  exact (hfind "b").mpr ⟨["a"], ["c"], by decide, by decide, by decide⟩

end RingRouting.Ring
