import RingRouting.Ring.Basic

/-!
# Shares of the ring

A virtual node owns the arc from its predecessor, which it excludes, up to its own token, which it
includes. The arc of a member is the sum over its virtual nodes, counted in tokens; its share is
that count over the whole circle. The arcs of all members are summed in one round. Main statement:
`getD_arcSums`, that the sum kept for a member is its arc.
-/

namespace RingRouting.Ring

variable {μ : Type}

/-- The number of tokens on the whole circle. -/
def circle : Nat := UInt64.size

/-- Each virtual node of a list in ring order with the length of its arc, given the virtual node
before the first. -/
def arcsFrom (previous : VirtualNode) : List VirtualNode → List (String × Nat)
  | [] => []
  | v :: rest => (v.member, (previous.distance v).toNat) :: arcsFrom v rest

/-- Each virtual node's owner and the length of its arc, in ring order. A virtual node that is alone
owns the whole circle. -/
def arcs (r : Ring μ) : List (String × Nat) :=
  match r.vnodes.toList with
  | [] => []
  | [v] => [(v.member, circle)]
  | v :: rest => arcsFrom ((v :: rest).getLast (by simp)) (v :: rest)

/-- The number of tokens that the member under `key` owns. -/
def arc (r : Ring μ) (key : String) : Nat :=
  (r.arcs.filter (·.1 == key)).foldr (fun (_, n) total => n + total) 0

/-- The number of tokens that each member owns, in one round over the virtual nodes. -/
def arcSums (r : Ring μ) : Std.ExtTreeMap String Nat :=
  r.arcs.foldl (fun sums (key, n) => sums.insert key (sums.getD key 0 + n)) ∅

theorem getD_foldl_add (arcs : List (String × Nat)) (sums : Std.ExtTreeMap String Nat)
    (key : String) :
    (arcs.foldl (fun sums (key, n) => sums.insert key (sums.getD key 0 + n)) sums).getD key 0 =
      sums.getD key 0 + (arcs.filter (·.1 == key)).foldr (fun (_, n) total => n + total) 0 := by
  induction arcs generalizing sums with
  | nil => simp
  | cons arc rest ih =>
    obtain ⟨other, n⟩ := arc
    rw [List.foldl_cons, ih, Std.ExtTreeMap.getD_insert]
    cases h : other == key with
    | true =>
      obtain rfl : other = key := by simpa using h
      simp [Nat.add_assoc]
    | false =>
      have hne : other ≠ key := by simpa using h
      simp [h, hne]

/-- What one round sums up for a member is its arc. -/
theorem getD_arcSums (r : Ring μ) (key : String) : r.arcSums.getD key 0 = r.arc key := by
  rw [arcSums, getD_foldl_add, Std.ExtTreeMap.getD_empty, Nat.zero_add, arc]

/-- The floating-point number nearest to `n` tokens out of the whole circle. Scaling by a power of
two is exact, so only the count itself is rounded. -/
def share (n : Nat) : Float :=
  if n < circle then n.toUInt64.toFloat.scaleB (-64) else 1.0

/-- The share of each member, in the order of their keys. -/
def ownership (r : Ring μ) : List (String × Float) :=
  let sums := r.arcSums
  r.members.keys.map fun key => (key, share (sums.getD key 0))

end RingRouting.Ring
