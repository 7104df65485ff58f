import RingRouting.Picker
import RingRouting.Proofs.Ring.Churn

/-!
# Where a call may go

A picker over a ring routes a call that carries a key to one of the first owners of the key, as many
as the spread says. Chance decides which one it is, and may take any of them; the key of such a call
is not left to chance. A call is routed wherever the ring has members, and counted once. Main
statements: `mem_ownersOf_iff_pick` and `pick_ring_routes`.
-/

namespace RingRouting

namespace Ring

variable {μ : Type} {r : Ring μ}

/-- On a ring that is not empty a look-up succeeds, with the first owners. -/
theorem findN_eq_ok_ownersOf (key : ByteArray) (n : Nat) (hsize : r.size ≠ 0) :
    r.findN key n = .ok (r.ownersOf key n) := by
  rw [ownersOf, findN, if_neg (isEmpty_iff.not.mpr hsize)]

variable [Member μ]

/-- There are as many owners as were asked for, or as there are members. -/
theorem Sound.length_ownersOf (hr : r.Sound) (key : ByteArray) (n : Nat) :
    (r.ownersOf key n).length = min (max n 1) r.size := by
  rw [hr.ownersOf_eq, List.length_take, length_preference]

/-- There are no more owners than members. -/
theorem Sound.ownersOf_min (hr : r.Sound) (key : ByteArray) (n : Nat) :
    r.ownersOf key (min n r.size) = r.ownersOf key n := by
  rw [hr.ownersOf_eq, hr.ownersOf_eq, List.take_eq_take_iff, length_preference]
  omega

/-- Every owner is a member. -/
theorem Sound.mem_toList_of_mem_ownersOf (hr : r.Sound) {key : ByteArray} {n : Nat} {m : μ}
    (hm : m ∈ r.ownersOf key n) : m ∈ r.toList := by
  rw [hr.ownersOf_eq] at hm
  exact mem_preference.mp (List.mem_of_mem_take hm)

/-- The first owner is the one that a call goes to where it is not spread. -/
theorem Sound.find_eq_ok_iff_ownersOf (hr : r.Sound) {key : ByteArray} {m : μ} :
    r.find key = .ok m ↔ r.ownersOf key 1 = [m] := by
  rw [hr.find_eq_ok_iff, hr.ranking_eq, hr.ownersOf_eq]
  cases r.preference (r.partitioner.token key) <;> simp

end Ring

namespace Picker

variable {members : Ring Connection} {spread : UInt8} {key : ByteArray}

/-- The key that a call is routed by. -/
def routingKey (key : Option ByteArray) (chance : Chance) : ByteArray :=
  (givenKey? key).getD chance.key

/-- A call that comes with a key is routed by it. -/
theorem routingKey_some (hkey : ¬key.isEmpty) (chance : Chance) :
    routingKey (some key) chance = key := by
  rw [routingKey, givenKey?, Option.filter_some, Bool.eq_false_iff.mpr hkey]
  rfl

/-- Which one of so many owners chance takes. -/
def chosen (spread : UInt8) (chance : Chance) (owners : Nat) : Nat :=
  if 1 < spread ∧ 1 < owners then chance.index % owners else 0

/-- Chance takes one of the owners. -/
theorem chosen_lt (spread : UInt8) (chance : Chance) {owners : Nat} (h : owners ≠ 0) :
    chosen spread chance owners < owners := by
  unfold chosen
  split
  next => exact Nat.mod_lt _ (Nat.pos_of_ne_zero h)
  next => exact Nat.pos_of_ne_zero h

/-- Chance may take any of the owners. Where calls are not spread there is only one. -/
theorem exists_chosen_eq (spread : UInt8) {owners i : Nat} (hi : i < owners)
    (howners : owners ≤ max spread.toNat 1) : ∃ chance, chosen spread chance owners = i := by
  refine ⟨⟨.empty, i⟩, ?_⟩
  unfold chosen
  split
  next => exact Nat.mod_eq_of_lt hi
  next hnot =>
    rw [UInt8.lt_iff_toNat_lt, UInt8.toNat_one] at hnot
    omega

/-- A pick that finds an owner hands it out and is counted. -/
theorem pick_eq_picked {given : Option ByteArray} (hsize : members.size ≠ 0) {chance : Chance}
    {c : Connection}
    (hc : (members.ownersOf (routingKey given chance) spread.toNat)[chosen spread chance
      (members.ownersOf (routingKey given chance) spread.toNat).length]? = some c) (m : Metrics) :
    (ring members spread).pick given chance m = (.ok c, m.picked) := by
  unfold chosen routingKey at hc
  simp only [pick, Ring.findN_eq_ok_ownersOf _ _ hsize, hc]

/-- A call is routed, and to an owner of the key that it is routed by. -/
theorem exists_pick_eq_picked (spread : UInt8) (hmembers : members.Sound) (hsize : members.size ≠ 0)
    (given : Option ByteArray) (chance : Chance) (m : Metrics) :
    ∃ c ∈ members.ownersOf (routingKey given chance) spread.toNat,
      (ring members spread).pick given chance m = (.ok c, m.picked) := by
  have hlength : (members.ownersOf (routingKey given chance) spread.toNat).length ≠ 0 := by
    rw [hmembers.length_ownersOf]
    omega
  have hlt := chosen_lt spread chance hlength
  exact ⟨_, List.getElem_mem hlt, pick_eq_picked hsize (List.getElem?_eq_getElem hlt) m⟩

/-- Without members no call is routed. -/
theorem pick_eq_pickFailed (spread : UInt8) (hsize : members.size = 0) (given : Option ByteArray)
    (chance : Chance) (m : Metrics) : (ring members spread).pick given chance m =
      (.error (.unavailable RingError.empty.message), m.pickFailed) := by
  simp only [pick, Ring.findN_eq_empty _ _ hsize]

/-- Whatever chance takes, it is one of the first owners of the key. -/
theorem exists_pick_eq (hmembers : members.Sound) (hkey : ¬key.isEmpty) (hsize : members.size ≠ 0)
    (chance : Chance) (m : Metrics) : ∃ c ∈ members.ownersOf key spread.toNat,
      ((ring members spread).pick (some key) chance m).1 = .ok c := by
  obtain ⟨c, hc, hpick⟩ := exists_pick_eq_picked spread hmembers hsize (some key) chance m
  rw [routingKey_some hkey] at hc
  exact ⟨c, hc, congrArg (·.1) hpick⟩

/-- The owners of a key are what calls with the key may be routed to. -/
theorem mem_ownersOf_iff_pick (hmembers : members.Sound) (hkey : ¬key.isEmpty)
    (hsize : members.size ≠ 0)
    (m : Metrics) (c : Connection) : c ∈ members.ownersOf key spread.toNat ↔
      ∃ chance, ((ring members spread).pick (some key) chance m).1 = .ok c := by
  constructor
  · intro hc
    obtain ⟨i, hi, rfl⟩ := List.mem_iff_getElem.mp hc
    obtain ⟨chance, hchosen⟩ := exists_chosen_eq spread hi
      (hmembers.length_ownersOf key _ ▸ Nat.min_le_left ..)
    refine ⟨chance, congrArg (·.1) (pick_eq_picked hsize ?_ m)⟩
    rw [routingKey_some hkey, hchosen, List.getElem?_eq_getElem hi]
  · intro h
    obtain ⟨chance, hpick⟩ := h
    obtain ⟨c', hc', hpick'⟩ := exists_pick_eq hmembers hkey hsize chance m
    rw [hpick] at hpick'
    exact Except.ok.inj hpick' ▸ hc'

/-- Where calls are not spread, they go to the first owner. -/
theorem exists_pick_eq_of_le_one (hmembers : members.Sound) (hkey : ¬key.isEmpty)
    (hsize : members.size ≠ 0)
    (hspread : spread ≤ 1) (m : Metrics) : ∃ c, members.find key = .ok c ∧
      ∀ chance, ((ring members spread).pick (some key) chance m).1 = .ok c := by
  obtain ⟨c, -, hfind⟩ := hmembers.find_eq key hsize
  have howners : members.ownersOf key spread.toNat = [c] := by
    rw [UInt8.le_iff_toNat_le, UInt8.toNat_one] at hspread
    rw [← hmembers.find_eq_ok_iff_ownersOf.mp hfind, hmembers.ownersOf_eq, hmembers.ownersOf_eq,
      Nat.max_eq_right hspread, Nat.max_self]
  refine ⟨c, hfind, fun chance => ?_⟩
  obtain ⟨c', hc', hpick⟩ := exists_pick_eq_picked spread hmembers hsize (some key) chance m
  rw [routingKey_some hkey, howners, List.mem_singleton] at hc'
  exact hc' ▸ congrArg (·.1) hpick

/-- Whether a call fails, where it may go, and what is counted. -/
theorem pick_ring_routes (hmembers : members.Reachable) (spread : UInt8) (given : Option ByteArray)
    (m : Metrics) :
    (∀ chance e, ((ring members spread).pick given chance m).1 = .error e ↔
      members.size = 0 ∧ e = .unavailable RingError.empty.message) ∧
    (members.size ≠ 0 → ∀ key, given = some key → ¬key.isEmpty →
      (∀ c, (∃ chance, ((ring members spread).pick given chance m).1 = .ok c) ↔
        c ∈ (members.preference (members.partitioner.token key)).take
          (min (max spread.toNat 1) members.size)) ∧
      (spread ≤ 1 → ∃ c, members.find key = .ok c ∧
        ∀ chance, ((ring members spread).pick given chance m).1 = .ok c)) ∧
    (members.size ≠ 0 → ∀ chance, ∃ c ∈ members.toList,
      ((ring members spread).pick given chance m).1 = .ok c) ∧
    ∀ chance, let called := (ring members spread).pick given chance m
      ((∃ c, called.1 = .ok c) ∧ called.2 = { m with picks := m.picks + 1 }) ∨
        ((∃ e, called.1 = .error e) ∧ called.2 =
          { m with pickFailures := m.pickFailures + 1 }) := by
  have hsound := hmembers.sound
  refine ⟨fun chance e => ?_, fun hsize key heq hkey => ⟨fun c => ?_, fun hspread => ?_⟩,
    fun hsize chance => ?_, fun chance => ?_⟩
  · by_cases hsize : members.size = 0
    · rw [pick_eq_pickFailed spread hsize, Except.error.injEq, eq_comm]
      exact (and_iff_right hsize).symm
    · obtain ⟨c, -, hpick⟩ := exists_pick_eq_picked spread hsound hsize given chance m
      rw [hpick]
      exact ⟨nofun, fun h => absurd h.1 hsize⟩
  · rw [heq, ← mem_ownersOf_iff_pick hsound hkey hsize, ← Except.ok.inj
      ((Ring.findN_eq_ok_ownersOf key _ hsize).symm.trans (hsound.findN_eq key _ hsize))]
  · exact heq ▸ exists_pick_eq_of_le_one hsound hkey hsize hspread m
  · obtain ⟨c, hc, hpick⟩ := exists_pick_eq_picked spread hsound hsize given chance m
    exact ⟨c, hsound.mem_toList_of_mem_ownersOf hc, congrArg (·.1) hpick⟩
  · by_cases hsize : members.size = 0
    · have hpick := pick_eq_pickFailed spread hsize given chance m
      exact .inr ⟨⟨_, congrArg (·.1) hpick⟩, congrArg (·.2) hpick⟩
    · obtain ⟨c, -, hpick⟩ := exists_pick_eq_picked spread hsound hsize given chance m
      exact .inl ⟨⟨c, congrArg (·.1) hpick⟩, congrArg (·.2) hpick⟩

/-- A spread of five over two members. Calls with a key may go to either of them, and none fails. -/
theorem pick_ring_crowded : ∃ empty : Ring Connection, Ring.new Ring.crowded 2 = .ok empty ∧
    let c : Connection := ⟨0, ⟨"h:0", "", none⟩⟩
    let c' : Connection := ⟨1, ⟨"h:1", "", none⟩⟩
    let call chance := ((ring (empty.run [.add c, .add c']) 5).pick (some "k".toUTF8) chance {}).1
    (∀ x, (∃ chance, call chance = .ok x) ↔ x = c ∨ x = c') ∧
    ∀ chance e, call chance ≠ .error e := by
  refine ⟨⟨Ring.crowded, 2, by decide, ∅, ∅⟩, rfl, ?_⟩
  intro c c' call
  obtain ⟨hfails, hroutes, -⟩ :=
    pick_ring_routes ⟨Ring.crowded, 2, _, [.add c, .add c'], rfl, rfl⟩ 5
    (some "k".toUTF8) {}
  obtain ⟨hreach, -⟩ := hroutes (by decide) _ rfl (by decide)
  refine ⟨fun x => (hreach x).trans ?_,
    fun chance e h => absurd ((hfails chance e).mp h).1 (by decide)⟩
  rw [Ring.preference, List.mergeSort_of_pairwise (by decide),
    show List.take _ _ = [c, c'] by decide, List.mem_cons, List.mem_singleton]

/-- The address that a call with that key goes to. -/
def target (p : Picker) (key : ByteArray) (chance : Chance) (m : Metrics) :
    Except BalancerError Address :=
  (p.pick (some key) chance m).1.map (·.address)

/-- A call goes to the address of one of the first owners of its key. -/
theorem exists_target_eq (hmembers : members.Sound) (hkey : ¬key.isEmpty) (hsize : members.size ≠ 0)
    (chance : Chance) (m : Metrics) : ∃ a ∈ (members.ownersOf key spread.toNat).map (·.address),
      (ring members spread).target key chance m = .ok a := by
  obtain ⟨c, hc, hpick⟩ := exists_pick_eq hmembers hkey hsize chance m
  exact ⟨c.address, List.mem_map_of_mem hc, by rw [target, hpick]; rfl⟩

/-- Each of the first owners' addresses is gone to by some chance, and no other is. -/
theorem mem_map_ownersOf_iff_target (hmembers : members.Sound) (hkey : ¬key.isEmpty)
    (hsize : members.size ≠ 0) (m : Metrics) (a : Address) :
    a ∈ (members.ownersOf key spread.toNat).map (·.address) ↔
      ∃ chance, (ring members spread).target key chance m = .ok a := by
  constructor
  · intro ha
    obtain ⟨c, hc, rfl⟩ := List.mem_map.mp ha
    obtain ⟨chance, hpick⟩ := (mem_ownersOf_iff_pick hmembers hkey hsize m c).mp hc
    exact ⟨chance, by rw [target, hpick]; rfl⟩
  · intro h
    obtain ⟨chance, htarget⟩ := h
    obtain ⟨a', ha', htarget'⟩ := exists_target_eq hmembers hkey hsize chance m
    rw [htarget] at htarget'
    exact Except.ok.inj htarget' ▸ ha'

/-- Where there is one owner to go to, calls go there. -/
theorem target_eq_of_ownersOf_eq (hmembers : members.Sound) (hkey : ¬key.isEmpty)
    (hsize : members.size ≠ 0)
    {a : Address} (howners : (members.ownersOf key spread.toNat).map (·.address) = [a])
    (chance : Chance)
    (m : Metrics) : (ring members spread).target key chance m = .ok a := by
  obtain ⟨a', ha', htarget⟩ := exists_target_eq hmembers hkey hsize chance m
  rw [howners, List.mem_singleton] at ha'
  rw [htarget, ha']

end Picker

end RingRouting
