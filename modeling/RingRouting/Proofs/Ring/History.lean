import Mathlib.Data.List.Induction
import RingRouting.Proofs.Ring.Placement

/-!
# Histories of a ring

A history is any sequence of operations on a ring, refused ones included. What it leaves can be told
without following it: under each key the member of the last addition that was not taken off again,
for each of these members its virtual nodes, and nothing else. So two histories that leave the same
members under the same number of virtual nodes leave the same ring. Main statement:
`run_represents`.
-/

namespace RingRouting.Ring

/-- One operation on a ring. -/
inductive Op (μ : Type) where
  /-- Place a member. -/
  | add (m : μ)
  /-- Take off the member that has the key of this one. -/
  | remove (m : μ)
  /-- Take off the member under a key. -/
  | removeKey (key : String)
  /-- Build the ring anew with another number of virtual nodes per member. -/
  | rebuild (factor : UInt16)

variable {μ : Type} [Member μ]

/-- The operation takes the member under `key` off. -/
def Op.Frees (key : String) : Op μ → Prop
  | .remove m => Member.key m = key
  | .removeKey other => other = key
  | .add _ | .rebuild _ => False

/-- The ring after one operation, or why the operation is refused. -/
def perform (r : Ring μ) : Op μ → Except RingError (Ring μ)
  | .add m => r.add m
  | .remove m => (r.remove (Member.key m)).map (·.2)
  | .removeKey key => (r.remove key).map (·.2)
  | .rebuild factor => r.rebuild factor

/-- The ring after one operation. One that is refused changes nothing. -/
def step (r : Ring μ) (op : Op μ) : Ring μ :=
  match r.perform op with
  | .ok r' => r'
  | .error _ => r

/-- The ring after a history. -/
def run (r : Ring μ) (ops : List (Op μ)) : Ring μ :=
  ops.foldl step r

/-- Some history leads to the ring from one without members. -/
def Reachable (r : Ring μ) : Prop :=
  ∃ p factor empty ops, new p factor = .ok empty ∧ empty.run ops = r

theorem run_concat (r : Ring μ) (ops : List (Op μ)) (op : Op μ) :
    r.run (ops ++ [op]) = (r.run ops).step op := by
  rw [run, run, List.foldl_append, List.foldl_cons, List.foldl_nil]

/-- Operations one after the other. -/
theorem run_append (r : Ring μ) (ops ops' : List (Op μ)) :
    r.run (ops ++ ops') = (r.run ops).run ops' :=
  List.foldl_append ..

/-! ## One operation -/

/-- Why the ring refuses an operation, if it does: a key that is taken cannot be taken again, one
that is free cannot be freed, and each member must have a virtual node. -/
def Op.refusal? (r : Ring μ) : Op μ → Option RingError
  | .add m => if r.contains (Member.key m) then some (.memberExists (Member.key m)) else none
  | .remove m => if r.contains (Member.key m) then none else some (.memberUnknown (Member.key m))
  | .removeKey key => if r.contains key then none else some (.memberUnknown key)
  | .rebuild factor => if factor = 0 then some .zeroFactor else none

/-- The number of virtual nodes per member after an operation that was tried where it was
`factor`. -/
def Op.factorAfter (factor : UInt16) : Op μ → UInt16
  | .rebuild new => if new = 0 then factor else new
  | .add _ | .remove _ | .removeKey _ => factor

/-- A sound ring refuses an operation just where `refusal?` says so. -/
theorem Sound.perform_eq_error_iff {r : Ring μ} (hr : r.Sound) {op : Op μ} {e : RingError} :
    r.perform op = .error e ↔ op.refusal? r = some e := by
  have hremove (key : String) : (r.remove key).map (·.2) = .error e ↔
      (if r.contains key then none else some (RingError.memberUnknown key)) = some e := by
    have hmap : (r.remove key).map (·.2) = .error e ↔ r.remove key = .error e := by
      cases r.remove key <;> simp [Except.map]
    rw [hmap, remove_eq_error_iff]
    cases hc : r.contains key <;> simp [eq_comm]
  cases op with
  | add m =>
    rw [perform, add_eq_error_iff, Op.refusal?]
    split
    next h => simp [h, eq_comm]
    next h => simp [h]
  | remove m => exact hremove (Member.key m)
  | removeKey key => exact hremove key
  | rebuild factor =>
    rw [perform, hr.rebuild_eq_error_iff, Op.refusal?]
    split
    next h => simp [h, eq_comm]
    next h => simp [h]

theorem step_eq_of_perform_eq_ok {r r' : Ring μ} {op : Op μ} (h : r.perform op = .ok r') :
    r.step op = r' := by
  rw [step, h]

theorem step_eq_of_perform_eq_error {r : Ring μ} {op : Op μ} {e : RingError}
    (h : r.perform op = .error e) : r.step op = r := by
  rw [step, h]

/-- What an operation does to a ring: nothing, where it is refused, or what it says. -/
inductive Stepped (r : Ring μ) : Op μ → Ring μ → Prop
  | refused {op : Op μ} {e : RingError} (h : op.refusal? r = some e) : Stepped r op r
  | added {r' : Ring μ} {m : μ} (h : r.Added m r') : Stepped r (.add m) r'
  | removed {op : Op μ} {r' : Ring μ} {key : String} {m : μ} (h : r.Removed key m r')
      (hfrees : ∀ other, op.Frees other ↔ key = other)
      (hfactor : ∀ factor, op.factorAfter factor = factor) : Stepped r op r'
  | rebuilt {r' : Ring μ} {factor : UInt16} (h0 : factor ≠ 0) (h : r.Rebuilt factor r') :
      Stepped r (.rebuild factor) r'

/-- What an operation can do to a sound ring. -/
theorem Sound.stepped {r : Ring μ} (hr : r.Sound) {op : Op μ} {r' : Ring μ} (h : r.step op = r') :
    r.Stepped op r' := by
  cases hperform : r.perform op with
  | error e =>
    obtain rfl := (step_eq_of_perform_eq_error hperform).symm.trans h
    exact .refused (hr.perform_eq_error_iff.mp hperform)
  | ok r₁ =>
    obtain rfl := (step_eq_of_perform_eq_ok hperform).symm.trans h
    have hremoved (key : String) (hmap : (r.remove key).map (·.2) = .ok r₁) :
        ∃ m, r.Removed key m r₁ := by
      cases hremove : r.remove key with
      | error => simp [hremove, Except.map] at hmap
      | ok taken =>
        rw [hremove] at hmap
        cases hmap
        exact ⟨taken.1, removed_of_remove hremove⟩
    cases op with
    | add m => exact .added (added_of_add hperform)
    | remove m =>
      obtain ⟨m', h'⟩ := hremoved _ hperform
      exact .removed h' (fun _ => Iff.rfl) (fun _ => rfl)
    | removeKey key =>
      obtain ⟨m', h'⟩ := hremoved _ hperform
      exact .removed h' (fun _ => Iff.rfl) (fun _ => rfl)
    | rebuild factor =>
      obtain ⟨h0, hrebuilt⟩ := hr.rebuilt_of_rebuild hperform
      exact .rebuilt h0 hrebuilt

/-- Every operation leaves it sound. -/
theorem Stepped.sound {r r' : Ring μ} {op : Op μ} (hr : r.Sound) (h : r.Stepped op r') :
    r'.Sound := by
  cases h with
  | refused => exact hr
  | added h => exact hr.add h
  | removed h => exact hr.remove h
  | rebuilt _ h => exact h.sound

theorem Stepped.partitioner_eq {r r' : Ring μ} {op : Op μ} (h : r.Stepped op r') :
    r'.partitioner = r.partitioner := by
  cases h with
  | refused => rfl
  | added h => exact h.partitioner_eq
  | removed h => exact h.partitioner_eq
  | rebuilt _ h => exact h.partitioner_eq

/-- Only a rebuild changes the number of virtual nodes per member. -/
theorem Stepped.factor_eq {r r' : Ring μ} {op : Op μ} (h : r.Stepped op r') :
    r'.factor = op.factorAfter r.factor := by
  cases h with
  | refused h =>
    cases op with
    | add | remove | removeKey => rfl
    | rebuild factor =>
      by_cases h0 : factor = 0
      · exact (if_pos h0).symm
      · simp [Op.refusal?, h0] at h
  | added h => exact h.factor_eq
  | removed h _ hfactor => exact h.factor_eq.trans (hfactor _).symm
  | rebuilt h0 h => exact h.factor_eq.trans (if_neg h0).symm

/-- What is refused would have freed no key that is taken. -/
theorem Op.not_frees_of_refusal? {r : Ring μ} {op : Op μ} {e : RingError} {key : String}
    (h : op.refusal? r = some e) (hc : r.contains key = true) : ¬op.Frees key := by
  intro hfrees
  cases op with
  | add | rebuild => exact hfrees
  | remove m =>
    obtain rfl := hfrees
    simp [Op.refusal?, hc] at h
  | removeKey other =>
    obtain rfl := hfrees
    simp [Op.refusal?, hc] at h

/-- A member stands under a key after an operation if the operation placed it there, or if it stood
there before and was not taken off. -/
theorem Stepped.get?_eq_some_iff {r r' : Ring μ} {op : Op μ} (h : r.Stepped op r') (key : String)
    (m : μ) : r'.get? key = some m ↔
      (op = .add m ∧ Member.key m = key ∧ r.contains key = false) ∨
        (r.get? key = some m ∧ ¬op.Frees key) := by
  cases h with
  | refused h =>
    constructor
    · intro hm
      have hc : r.contains key = true := by rw [contains_eq_isSome, hm]; rfl
      exact .inr ⟨hm, Op.not_frees_of_refusal? h hc⟩
    · intro hcase
      rcases hcase with ⟨rfl, rfl, hfree⟩ | ⟨hm, -⟩
      · simp [Op.refusal?, hfree] at h
      · exact hm
  | @added _ m' h =>
    rw [h.get?_eq_some_iff]
    constructor
    · intro hcase
      rcases hcase with ⟨rfl, rfl⟩ | hm
      · exact .inl ⟨rfl, rfl, h.free⟩
      · exact .inr ⟨hm, id⟩
    · intro hcase
      rcases hcase with ⟨heq, hk, -⟩ | ⟨hm, -⟩
      · cases heq
        exact .inl ⟨rfl, hk⟩
      · exact .inr hm
  | @removed _ _ taken m' h hfrees _ =>
    have hadd : op ≠ .add m := by
      intro heq
      subst heq
      exact (hfrees taken).mpr rfl
    rw [h.get?_eq, hfrees]
    by_cases hk : taken = key <;> simp [hk, hadd]
  | rebuilt _ h =>
    rw [h.get?_eq]
    constructor
    · exact fun hm => Or.inr ⟨hm, id⟩
    · intro hcase
      rcases hcase with ⟨habs, -⟩ | ⟨hm, -⟩
      · cases habs
      · exact hm

/-! ## Histories -/

/-- A history leaves a ring sound, by induction over it. -/
theorem Sound.run {r : Ring μ} (hr : r.Sound) (ops : List (Op μ)) : (r.run ops).Sound := by
  induction ops using List.reverseRecOn with
  | nil => exact hr
  | append_singleton ops op ih =>
    rw [run_concat]
    exact (ih.stepped rfl).sound ih

/-- A history leaves the partitioner. -/
theorem Sound.partitioner_run {r : Ring μ} (hr : r.Sound) (ops : List (Op μ)) :
    (r.run ops).partitioner = r.partitioner := by
  induction ops using List.reverseRecOn with
  | nil => rfl
  | append_singleton ops op ih =>
    rw [run_concat]
    exact ((hr.run ops).stepped rfl).partitioner_eq.trans ih

/-- The factor is that of the last rebuild that was not refused. -/
theorem Sound.factor_run {r : Ring μ} (hr : r.Sound) (ops : List (Op μ)) :
    (r.run ops).factor = ops.foldl Op.factorAfter r.factor := by
  induction ops using List.reverseRecOn with
  | nil => rfl
  | append_singleton ops op ih =>
    rw [run_concat, List.foldl_append, ← ih]
    exact ((hr.run ops).stepped rfl).factor_eq

/-- Every ring that can be reached is sound. -/
theorem Reachable.sound {r : Ring μ} (hr : r.Reachable) : r.Sound := by
  obtain ⟨p, factor, empty, ops, hnew, rfl⟩ := hr
  exact (Sound.new hnew).run ops

theorem Reachable.run {r : Ring μ} (hr : r.Reachable) (ops : List (Op μ)) :
    (r.run ops).Reachable := by
  obtain ⟨p, factor, empty, before, hnew, rfl⟩ := hr
  exact ⟨p, factor, empty, before ++ ops, hnew, run_append ..⟩

/-- The last addition under `key` that was not refused placed `m`, and nothing took it off since. As
long as a key is taken, further additions under it are refused, so that none of them can come
after. -/
def LastPlaced (r : Ring μ) (ops : List (Op μ)) (key : String) (m : μ) : Prop :=
  ∃ before after, ops = before ++ .add m :: after ∧ Member.key m = key ∧
    (r.run before).contains key = false ∧ ∀ op ∈ after, ¬op.Frees key

/-- The member placed last is the one that the next operation adds, or the one before it if the
operation does not free its key. -/
theorem lastPlaced_concat_iff {r : Ring μ} {ops : List (Op μ)} {op : Op μ} {key : String} {m : μ} :
    r.LastPlaced (ops ++ [op]) key m ↔
      (op = .add m ∧ Member.key m = key ∧ (r.run ops).contains key = false) ∨
        (r.LastPlaced ops key m ∧ ¬op.Frees key) := by
  constructor
  · intro hcase
    obtain ⟨before, after, heq, hk, hfree, hafter⟩ := hcase
    rcases List.eq_nil_or_concat after with rfl | ⟨after, last, rfl⟩
    · obtain ⟨rfl, hop⟩ := List.append_inj' heq rfl
      exact Or.inl ⟨List.singleton_inj.mp hop, hk, hfree⟩
    · rw [List.concat_eq_append] at heq hafter
      rw [← List.cons_append, ← List.append_assoc] at heq
      obtain ⟨rfl, hop⟩ := List.append_inj' heq rfl
      obtain rfl := List.singleton_inj.mp hop
      exact Or.inr ⟨⟨before, after, rfl, hk, hfree, fun o ho => hafter o (by simp [ho])⟩,
        hafter op (by simp)⟩
  · intro hcase
    rcases hcase with ⟨rfl, hk, hfree⟩ | ⟨⟨before, after, rfl, hk, hfree, hafter⟩, hop⟩
    · exact ⟨ops, [], rfl, hk, hfree, by simp⟩
    · refine ⟨before, after ++ [op], by simp, hk, hfree, fun o ho => ?_⟩
      rcases List.mem_append.mp ho with ho | ho
      · exact hafter o ho
      · exact List.mem_singleton.mp ho ▸ hop

/-- Under a key is the member that was placed there last, by induction over the history. -/
theorem get?_run_eq_some_iff {r : Ring μ} (hr : r.Sound) (hempty : ∀ key, r.get? key = none)
    (ops : List (Op μ)) (key : String) (m : μ) :
    (r.run ops).get? key = some m ↔ r.LastPlaced ops key m := by
  induction ops using List.reverseRecOn with
  | nil =>
    constructor
    · intro hm
      rw [run, List.foldl_nil, hempty] at hm
      cases hm
    · intro hcase
      obtain ⟨before, after, heq, -⟩ := hcase
      simp at heq
  | append_singleton ops op ih =>
    rw [run_concat, ((hr.run ops).stepped rfl).get?_eq_some_iff, lastPlaced_concat_iff, ih]

/-- What a history leaves on a ring that was empty before it. -/
theorem run_represents (p : Partitioner) (factor : UInt16) (hfactor : factor ≠ 0) :
    ∃ empty : Ring μ, new p factor = .ok empty ∧ ∀ ops : List (Op μ),
      (∀ v, v ∈ (empty.run ops).vnodes ↔ ∃ key i, (empty.run ops).contains key ∧
        i < (empty.run ops).factor.toNat ∧ v = ⟨p.token (key ++ toString i).toUTF8, key⟩) ∧
      (∀ key m, (empty.run ops).get? key = some m ↔ empty.LastPlaced ops key m) ∧
      (empty.run ops).factor = ops.foldl Op.factorAfter factor ∧
      (∀ op e, (empty.run ops).perform op = .error e ↔ op.refusal? (empty.run ops) = some e) ∧
      (∀ op e, (empty.run ops).perform op = .error e → (empty.run ops).step op = empty.run ops) ∧
      ∀ r : Ring μ, r.Reachable → r.partitioner = p → r.factor = (empty.run ops).factor →
        (∀ key, r.get? key = (empty.run ops).get? key) → r = empty.run ops := by
  have hnew := new_eq_ok (μ := μ) (p := p) hfactor
  have hsound := Sound.new hnew
  refine ⟨_, hnew, fun ops => ⟨fun v => ?_, ?_, hsound.factor_run ops, ?_, ?_, ?_⟩⟩
  · have hrun := hsound.run ops
    have hp := hsound.partitioner_run ops
    rw [hrun.mem_vnodes, placement, VirtualNode.mem_placement, hp]
    constructor
    · intro hcase
      obtain ⟨hc, i, hi, hv⟩ := hcase
      exact ⟨v.member, i, hc, hi, hv.symm⟩
    · intro hcase
      obtain ⟨key, i, hc, hi, rfl⟩ := hcase
      exact ⟨hc, i, hi, rfl⟩
  · exact get?_run_eq_some_iff hsound (fun _ => by simp [get?]) ops
  · exact fun op e => (hsound.run ops).perform_eq_error_iff
  · exact fun op e => step_eq_of_perform_eq_error
  · intro r hr hp hf hget
    exact (hsound.run ops).eq_of_get?_eq hr.sound (hp.trans (hsound.partitioner_run ops).symm) hf
      hget

/-- Everything stands on one token. -/
def crowded : Partitioner := ⟨"crowded", fun _ => ⟨7⟩⟩

/-- Short texts are read as numbers, different ones as different numbers. -/
def positional : Partitioner :=
  ⟨"positional", fun bytes => ⟨bytes.data.foldl (fun n byte => 256 * n + byte.toUInt64) 1⟩⟩

/-- All virtual nodes on one token, refused operations, and a detour through another number of
them. -/
theorem run_detour_eq : ∃ empty : Ring String, new crowded 2 = .ok empty ∧
    empty.run [.add "b", .add "c", .rebuild 5, .add "b", .add "a", .removeKey "c", .rebuild 2] =
      empty.run [.add "a", .rebuild 0, .add "b"] := by
  obtain ⟨empty, hnew, h⟩ := run_represents (μ := String) crowded 2 (by decide)
  obtain rfl : ⟨crowded, 2, by decide, ∅, ∅⟩ = empty := Except.ok.inj hnew
  refine ⟨_, hnew, (h _).2.2.2.2.2 _ ⟨_, _, _, _, hnew, rfl⟩ ?_ ?_ fun key => ?_⟩
  · exact (Sound.new hnew).partitioner_run _
  · rw [(h _).2.2.1, (h _).2.2.1]
    decide
  · refine congrArg (·[key]?) (Std.ExtTreeMap.toList_inj.mp ?_)
    decide

end RingRouting.Ring
