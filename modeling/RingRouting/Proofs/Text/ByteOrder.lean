/-!
# The order of texts by their bytes

Texts are compared character by character. UTF-8 is made so that comparing the encoded texts byte by
byte comes to the same: of two characters, the lesser one has the lesser byte where their encodings
first differ, and they differ before either of them ends. Main statement: `compare_bytes`.
-/

namespace RingRouting.Text

/-- The bytes of a text's encoding. -/
def bytes (s : String) : List UInt8 :=
  s.toUTF8.data.toList

theorem bytes_eq_flatMap (s : String) : bytes s = s.toList.flatMap String.utf8EncodeChar := by
  show s.toByteArray.data.toList = _
  rw [← String.utf8Encode_toList, List.utf8Encode]
  simp

/-! ## One character -/

theorem compare_cons_eq_lt_iff {x y : UInt8} {xs ys : List UInt8} :
    compare (x :: xs) (y :: ys) = .lt ↔
      x.toNat < y.toNat ∨ x.toNat = y.toNat ∧ compare xs ys = .lt := by
  rw [List.compare_cons_cons, Ordering.then_eq_lt, Std.LawfulEqOrd.compare_eq_iff_eq,
    ← UInt8.toNat_inj, Std.compare_eq_lt, UInt8.lt_iff_toNat_lt]

/-- A lesser character has lesser bytes, whatever follows. -/
theorem compare_utf8EncodeChar_append {c d : Char} (h : c < d) (l l' : List UInt8) :
    compare (String.utf8EncodeChar c ++ l) (String.utf8EncodeChar d ++ l') = .lt := by
  have hlt : c.val.toNat < d.val.toNat := h
  have hd : d.val.toNat < 0x110000 := by
    have := d.valid
    simp only [UInt32.isValidChar, Nat.isValidChar] at this
    omega
  simp only [String.utf8EncodeChar]
  generalize c.val.toNat = v at hlt
  generalize d.val.toNat = w at hlt hd
  have digits (n : Nat) : n / 4096 = n / 64 / 64 ∧ n / 262144 = n / 64 / 64 / 64 := by omega
  -- A longer encoding begins with a greater byte; equally long ones are compared digit by digit.
  rw [(digits v).1, (digits v).2, (digits w).1, (digits w).2]
  repeat' split
  all_goals
    simp only [List.cons_append, List.nil_append, compare_cons_eq_lt_iff, UInt8.toNat_ofNat']
    omega

/-! ## Whole texts -/

theorem compare_append_left (l xs ys : List UInt8) :
    compare (l ++ xs) (l ++ ys) = compare xs ys := by
  induction l with
  | nil => rfl
  | cons b l ih =>
    rw [List.cons_append, List.cons_append, List.compare_cons_cons, Std.ReflOrd.compare_self, ih]
    rfl

theorem compare_flatMap_of_lt {cs ds : List Char} (h : cs < ds) :
    compare (cs.flatMap String.utf8EncodeChar) (ds.flatMap String.utf8EncodeChar) = .lt := by
  induction h with
  | @nil d ds =>
    obtain ⟨b, rest, hd⟩ := List.exists_cons_of_ne_nil (String.utf8EncodeChar_ne_nil (c := d))
    rw [List.flatMap_nil, List.flatMap_cons, hd]
    rfl
  | rel hlt => exact compare_utf8EncodeChar_append hlt _ _
  | cons _ ih => rw [List.flatMap_cons, List.flatMap_cons, compare_append_left, ih]

/-- Texts are ordered as their bytes are. -/
theorem compare_bytes_of_lt {s t : String} (h : s < t) : compare (bytes s) (bytes t) = .lt := by
  rw [bytes_eq_flatMap, bytes_eq_flatMap]
  exact compare_flatMap_of_lt h

/-- Texts are in the order of their bytes. -/
theorem compare_bytes (s t : String) : compare (bytes s) (bytes t) = compare s t := by
  cases h : compare s t with
  | lt => exact compare_bytes_of_lt (compareOfLessAndEq_eq_lt.mp h)
  | eq =>
    obtain rfl := Std.LawfulEqOrd.compare_eq_iff_eq.mp h
    exact Std.ReflOrd.compare_self
  | gt =>
    have hlt : compare t s = .lt := Std.OrientedCmp.lt_of_gt h
    exact Std.OrientedCmp.gt_of_lt (compare_bytes_of_lt (compareOfLessAndEq_eq_lt.mp hlt))

end RingRouting.Text
