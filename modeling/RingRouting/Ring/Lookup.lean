import RingRouting.Ring.Basic
import RingRouting.Ring.Successor

/-!
# Looking up owners

A look-up hashes the key and walks clockwise from that token, once around the ring. The owners of
the key are the members in the order in which the walk first meets them. The walk goes from one
virtual node to the next and ends as soon as it has met enough members. Main statement: `owners_eq`,
that these are the first members of the whole walk, duplicates left out.
-/

namespace RingRouting.Ring

variable {μ : Type}

/-- The virtual nodes in the order of a clockwise walk from `t`: first those at `t` and beyond,
then, past the end of the ring, those before `t`. The empty key sorts before every other, so nothing
at `t` itself comes before the probe. -/
def walk (r : Ring μ) (t : Token) : List VirtualNode :=
  let probe : VirtualNode := ⟨t, ""⟩
  let all := r.vnodes.toList
  all.filter (!·.before probe) ++ all.filter (·.before probe)

/-- The first `n` distinct items of a list that are not in `seen`. -/
def firstDistinct : Nat → List String → List String → List String
  | 0, _, _ => []
  | _, _, [] => []
  | n + 1, seen, key :: rest =>
    if seen.contains key then firstDistinct (n + 1) seen rest
    else key :: firstDistinct n (key :: seen) rest

/-- Stopping early gives the same as removing all duplicates first. -/
theorem firstDistinct_eq_take (n : Nat) (seen keys : List String) :
    firstDistinct n seen keys = ((keys.filter (!seen.contains ·)).eraseDups).take n := by
  induction keys generalizing n seen with
  | nil => cases n <;> rfl
  | cons key rest ih =>
    cases n with
    | zero => simp [firstDistinct]
    | succ n =>
      rw [firstDistinct]
      split
      next h => rw [ih, List.filter_cons_of_neg (by simpa using h)]
      next h =>
        rw [ih, List.filter_cons_of_pos (by simpa using h), List.eraseDups_cons,
          List.take_succ_cons, List.filter_filter]
        congr 4
        funext other
        simp [Bool.beq_eq_decide_eq]

/-- The virtual node that a walk from `t` meets first. -/
def first? (r : Ring μ) (t : Token) : Option VirtualNode :=
  (r.vnodes.getGE? ⟨t, ""⟩).or r.vnodes.min?

/-- The virtual node that a walk meets after `v`. -/
def next? (r : Ring μ) (v : VirtualNode) : Option VirtualNode :=
  (r.vnodes.getGT? v).or r.vnodes.min?

/-- The keys of the first `n` distinct members that are not in `seen`, on a walk over as many
virtual nodes as the first argument says, beginning with the one that is given. -/
def gather (r : Ring μ) : Nat → Nat → List String → Option VirtualNode → List String
  | 0, _, _, _ => []
  | _, 0, _, _ => []
  | _, _, _, none => []
  | steps + 1, n + 1, seen, some v =>
    if seen.contains v.member then r.gather steps (n + 1) seen (r.next? v)
    else v.member :: r.gather steps n (v.member :: seen) (r.next? v)

/-- The keys of the first `n` distinct members on a walk from `t`. -/
def owners (r : Ring μ) (t : Token) (n : Nat) : List String :=
  r.gather r.vnodeCount n [] (r.first? t)

/-- In a list in strictly increasing order, a search for the items beyond one of them finds the item
that stands after it. -/
theorem find?_isGT_of_pairwise {front back : List VirtualNode} {v : VirtualNode}
    (h : (front ++ v :: back).Pairwise (compare · · = .lt)) :
    ((front ++ v :: back).find? fun w => (compare w v).isGT) = back.head? := by
  obtain ⟨-, hback, hfront⟩ := List.pairwise_append.mp h
  rw [List.find?_append, List.find?_eq_none.mpr fun a ha => by simp [hfront a ha v (by simp)],
    List.find?_cons_of_neg (by simp)]
  cases back with
  | nil => rfl
  | cons b rest =>
    rw [Option.none_or, List.find?_cons_of_pos, List.head?_cons]
    have hlt : compare v b = .lt := List.rel_of_pairwise_cons hback (by simp)
    simp [Std.OrientedCmp.gt_of_lt hlt]

/-- One step of a walk turns the list of all virtual nodes by one place. -/
theorem exists_next?_eq {r : Ring μ} {front back : List VirtualNode} {v : VirtualNode}
    (h : r.vnodes.toList = front ++ v :: back) :
    ∃ front' w back', r.next? v = some w ∧ r.vnodes.toList = front' ++ w :: back' ∧
      w :: (back' ++ front') = back ++ front ++ [v] := by
  have hsorted : (front ++ v :: back).Pairwise (compare · · = .lt) :=
    h ▸ Std.ExtTreeSet.ordered_toList
  have hnext : r.next? v = back.head?.or (front ++ v :: back).head? := by
    rw [next?, getGT?_eq_find?_toList, Std.ExtTreeSet.min?_eq_head?_toList, h,
      find?_isGT_of_pairwise hsorted]
  cases back with
  | cons b back => exact ⟨front ++ [v], b, back, by simp [hnext], by simp [h], by simp⟩
  | nil =>
    cases front with
    | nil => exact ⟨[], v, [], by simp [hnext], by simp [h], rfl⟩
    | cons f front => exact ⟨[], f, front ++ [v], by simp [hnext], by simp [h], by simp⟩

/-- A walk of at most one round meets the virtual nodes in the order of the turned list. -/
theorem gather_eq {r : Ring μ} (steps n : Nat) (seen : List String) {front back : List VirtualNode}
    {v : VirtualNode} (h : r.vnodes.toList = front ++ v :: back)
    (hsteps : steps ≤ (front ++ v :: back).length) :
    r.gather steps n seen (some v) =
      firstDistinct n seen (((v :: (back ++ front)).take steps).map (·.member)) := by
  induction steps generalizing n seen front back v with
  | zero => cases n <;> rfl
  | succ steps ih =>
    cases n with
    | zero => rfl
    | succ n =>
      obtain ⟨front', w, back', hnext, hlist, hturn⟩ := exists_next?_eq h
      have hlength : (front' ++ w :: back').length = (front ++ v :: back).length := by
        rw [← hlist, h]
      have htake : (w :: (back' ++ front')).take steps = (back ++ front).take steps := by
        rw [hturn, List.take_append_of_le_length]
        simp only [List.length_append, List.length_cons] at hsteps ⊢
        omega
      have step (n : Nat) (seen : List String) : r.gather steps n seen (some w) =
          firstDistinct n seen (((back ++ front).take steps).map (·.member)) := by
        rw [ih n seen hlist (by omega), htake]
      rw [gather, hnext, step, step, List.take_succ_cons, List.map_cons, firstDistinct]

/-- A list in increasing order is cut in two by a bound. -/
theorem exists_append_eq {l : List VirtualNode} (h : l.Pairwise (compare · · = .lt))
    (probe : VirtualNode) :
    ∃ front back, l = front ++ back ∧ (∀ v ∈ front, v.before probe) ∧
      ∀ v ∈ back, v.before probe = false := by
  induction l with
  | nil => exact ⟨[], [], rfl, by simp, by simp⟩
  | cons v rest ih =>
    obtain ⟨hv, hrest⟩ := List.pairwise_cons.mp h
    cases hprobe : v.before probe with
    | true =>
      obtain ⟨front, back, rfl, hfront, hback⟩ := ih hrest
      exact ⟨v :: front, back, rfl, by simpa [hprobe] using hfront, hback⟩
    | false =>
      refine ⟨[], v :: rest, rfl, by simp, fun w hw => ?_⟩
      rcases List.mem_cons.mp hw with rfl | hw
      · exact hprobe
      · simp only [VirtualNode.before, beq_eq_false_iff_ne, ne_eq] at hprobe ⊢
        exact fun hlt => hprobe (Std.TransCmp.lt_trans (hv w hw) hlt)

/-- The owners are the first members of the whole walk, duplicates left out. -/
theorem owners_eq (r : Ring μ) (t : Token) (n : Nat) :
    r.owners t n = firstDistinct n [] ((r.walk t).map (·.member)) := by
  obtain ⟨front, back, hlist, hfront, hback⟩ :=
    exists_append_eq (Std.ExtTreeSet.ordered_toList (t := r.vnodes)) ⟨t, ""⟩
  have hwalk : r.walk t = back ++ front := by
    rw [walk, hlist, List.filter_append, List.filter_append,
      List.filter_eq_nil_iff.mpr fun v hv => by simp [hfront v hv],
      List.filter_eq_self.mpr fun v hv => by simp [hback v hv],
      List.filter_eq_self.mpr hfront, List.filter_eq_nil_iff.mpr fun v hv => by simp [hback v hv],
      List.nil_append, List.append_nil]
  have hfirst : r.first? t = back.head?.or (front ++ back).head? := by
    have isGE_iff (v : VirtualNode) : (compare v ⟨t, ""⟩).isGE = !v.before ⟨t, ""⟩ := by
      rw [VirtualNode.before]
      cases compare v ⟨t, ""⟩ <;> rfl
    rw [first?, getGE?_eq_find?_toList, Std.ExtTreeSet.min?_eq_head?_toList, hlist,
      List.find?_append, List.find?_eq_none.mpr fun v hv => by simp [isGE_iff, hfront v hv],
      Option.none_or]
    cases back with
    | nil => rfl
    | cons b back => rw [List.find?_cons_of_pos (by simp [isGE_iff, hback b]), List.head?_cons]
  have hcount : r.vnodeCount = (front ++ back).length := by
    rw [vnodeCount, ← Std.ExtTreeSet.length_toList, hlist]
  rw [owners, hwalk, hfirst, hcount]
  cases back with
  | cons b back =>
    rw [List.head?_cons, Option.some_or, gather_eq _ n [] hlist (Nat.le_refl _),
      List.take_of_length_le (by simp; omega), List.cons_append]
  | nil =>
    cases front with
    | nil => cases n <;> rfl
    | cons f front =>
      rw [List.append_nil, List.head?_nil, Option.none_or, List.head?_cons,
        gather_eq _ n [] (show r.vnodes.toList = [] ++ f :: front by simpa using hlist) (by simp),
        List.take_of_length_le (by simp), List.append_nil, List.nil_append]

/-- The first `n` owners of `key`, at least one of them and at most all members. -/
def findN (r : Ring μ) (key : ByteArray) (n : Nat) : Except RingError (List μ) :=
  if r.isEmpty then .error .empty
  else
    let wanted := min (max n 1) r.size
    .ok ((r.owners (r.partitioner.token key) wanted).filterMap r.get?)

/-- The first owner of `key`. -/
def find (r : Ring μ) (key : ByteArray) : Except RingError μ := do
  match (← r.findN key 1).head? with
  | some m => .ok m
  | none => .error .empty

end RingRouting.Ring
