import RingRouting.Json.Reader
import RingRouting.Json.Writer

/-!
# Reading what is written

A text that is written for a value is read as that value wherever a value may stand, and the reader
stops right after it: `ReadsAs`. Strings, natural numbers and null are read so, and arrays and
objects if their parts are. A control character is written by its code and any other character as
one piece, so nothing of a string depends on the characters beside it. Main statement:
`parse?_of_readsAs`.
-/

namespace RingRouting.Json

/-! ## Strings -/

/-- The piece stands for the character. Only control characters are written as code units. -/
def Piece.StandsFor (c : Char) (p : Piece) : Prop :=
  p = .char c ∨ p = .unit c.toNat ∧ c.toNat < 0x20

/-- The code unit of four digits. -/
def unitOf? : List Char → Option Nat
  | [a, b, c, d] => hexUnit? a b c d
  | _ => none

/-- The four digits of a control character are read back. -/
theorem unitOf?_hexPadded : ∀ n < 0x20, unitOf? (Text.hexPadded 4 n).toList = some n := by
  decide

/-- They are four, and stand for its code. -/
theorem exists_hexPadded {n : Nat} (hn : n < 0x20) :
    ∃ a b c d, (Text.hexPadded 4 n).toList = [a, b, c, d] ∧ hexUnit? a b c d = some n := by
  have hunit := unitOf?_hexPadded n hn
  unfold unitOf? at hunit
  split at hunit
  next a b c d hdigits => exact ⟨a, b, c, d, hdigits, hunit⟩
  next => cases hunit

/-- An escape of two characters is one piece. -/
theorem readPieces_escape {e c : Char} (hescape : unescape? e = some c) (hunit : e ≠ 'u')
    (acc : List Piece)
    (rest : List Char) : readPieces acc ('\\' :: e :: rest) = readPieces (.char c :: acc) rest := by
  simp [readPieces, hescape, hunit]

/-- What is written for a character is read as one piece that stands for it. -/
theorem exists_piece (c : Char) : ∃ p : Piece, p.StandsFor c ∧ ∀ acc rest,
    readPieces acc ((escapeChar c).toList ++ rest) = readPieces (p :: acc) rest := by
  unfold escapeChar
  split
  · exact ⟨.char '"', .inl rfl, readPieces_escape rfl (by decide)⟩
  · exact ⟨.char '\\', .inl rfl, readPieces_escape rfl (by decide)⟩
  · exact ⟨.char '\x08', .inl rfl, readPieces_escape rfl (by decide)⟩
  · exact ⟨.char '\x0c', .inl rfl, readPieces_escape rfl (by decide)⟩
  · exact ⟨.char '\n', .inl rfl, readPieces_escape rfl (by decide)⟩
  · exact ⟨.char '\r', .inl rfl, readPieces_escape rfl (by decide)⟩
  · exact ⟨.char '\t', .inl rfl, readPieces_escape rfl (by decide)⟩
  · next hquote hslash _ _ _ _ _ =>
    split
    next hcontrol =>
      obtain ⟨a, b, c', d, hdigits, hunit⟩ := exists_hexPadded hcontrol
      refine ⟨.unit c.toNat, .inr ⟨rfl, hcontrol⟩, fun acc rest => ?_⟩
      simp [readPieces, hdigits, hunit]
    next hplain =>
      refine ⟨.char c, .inl rfl, fun acc rest => ?_⟩
      rw [readPieces.eq_def]
      simp [if_neg hquote, if_neg hslash, hplain]

/-- A piece that stands for a character is joined as that character. -/
theorem Piece.StandsFor.joinPieces {c : Char} {p : Piece} (h : p.StandsFor c) (acc : List Char)
    (rest : List Piece) :
    joinPieces acc (p :: rest) = joinPieces (c :: acc) rest := by
  rcases h with rfl | ⟨rfl, hcontrol⟩
  · rfl
  · have hlead : isLead c.toNat = false := by
      rw [isLead, decide_eq_false (by omega), Bool.false_and]
    have htrail : isTrail c.toNat = false := by
      rw [isTrail, decide_eq_false (by omega), Bool.false_and]
    rw [Json.joinPieces.eq_def]
    simp [hlead, htrail]

/-- The characters between the quotes are read as pieces that stand for them. -/
theorem exists_pieces (cs : List Char) : ∃ ps : List Piece,
    (∀ acc rest, readPieces acc (cs.flatMap (fun c => (escapeChar c).toList) ++ '"' :: rest) =
      some (acc.reverse ++ ps, rest)) ∧
    ∀ acc, joinPieces acc ps = some (String.ofList (acc.reverse ++ cs)) := by
  induction cs with
  | nil =>
    refine ⟨[], fun acc rest => ?_, fun acc => ?_⟩
    · rw [readPieces.eq_def]
      simp
    · rw [joinPieces, List.append_nil]
  | cons c rest ih =>
    obtain ⟨p, hpiece, hread⟩ := exists_piece c
    obtain ⟨ps, hreads, hjoins⟩ := ih
    refine ⟨p :: ps, fun acc after => ?_, fun acc => ?_⟩
    · rw [List.flatMap_cons, List.append_assoc, hread, hreads, List.reverse_cons, List.append_assoc]
      rfl
    · rw [hpiece.joinPieces, hjoins, List.reverse_cons, List.append_assoc]
      rfl

/-- A string is written between quotes, each character on its own. -/
theorem toList_writeString (s : String) : (writeString s).toList =
    '"' :: (s.toList.flatMap (fun c => (escapeChar c).toList) ++ ['"']) := by
  simp [writeString, List.flatMap_map]

/-- A string is read back, and the reader stops at its closing quote. -/
theorem readString_writeString (s : String) (rest : List Char) :
    readString (s.toList.flatMap (fun c => (escapeChar c).toList) ++ '"' :: rest) =
      some (some s, rest) := by
  obtain ⟨ps, hreads, hjoins⟩ := exists_pieces s.toList
  rw [readString, hreads]
  show some (joinPieces [] ps, rest) = some (some s, rest)
  rw [hjoins, List.reverse_nil, List.nil_append, String.ofList_toList]

/-! ## Numbers -/

/-- What may follow a value. -/
def Follows (rest : List Char) : Prop :=
  ∀ c, rest.head? = some c → c = ',' ∨ c = ']' ∨ c = '}'

theorem follows_nil : Follows [] :=
  nofun

/-- A comma or a closing bracket may follow a value. -/
theorem follows_cons {c : Char} (h : c = ',' ∨ c = ']' ∨ c = '}') (rest : List Char) :
    Follows (c :: rest) := by
  intro c' hc'
  obtain rfl := Option.some.inj hc'
  exact h

theorem head?_toDigits_ne {n : Nat} (hn : n ≠ 0) : (Nat.toDigits 10 n).head? ≠ some '0' := by
  induction n using Nat.strongRecOn with
  | ind n ih =>
    rw [Nat.toDigits_eq_if (by decide)]
    split
    next hsmall =>
      have hdigit : ∀ d < 10, d ≠ 0 → [d.digitChar].head? ≠ some '0' := by decide
      exact hdigit n hsmall hn
    next hlarge =>
      have hhead := ih (n / 10) (by omega) (by omega)
      obtain ⟨c, digits, hdigits⟩ :=
        List.exists_cons_of_ne_nil (Nat.toDigits_ne_nil (n := n / 10) (b := 10))
      rw [hdigits] at hhead ⊢
      exact hhead

/-- What follows a value ends a number. -/
theorem Follows.ends {rest : List Char} (h : Follows rest) :
    rest.takeWhile Char.isDigit = [] ∧ rest.dropWhile Char.isDigit = rest ∧
      readFraction rest = some (false, rest) ∧ readExponent rest = some (false, rest) := by
  cases rest with
  | nil => exact ⟨rfl, rfl, rfl, rfl⟩
  | cons c rest => rcases h c rfl with rfl | rfl | rfl <;> exact ⟨rfl, rfl, rfl, rfl⟩

theorem isDigit_toDigits (n : Nat) : ∀ c ∈ Nat.toDigits 10 n, c.isDigit = true :=
  fun _ hc => Nat.isDigit_of_mem_toDigits (by decide) (by decide) hc

/-- The digits of a number are read up to what follows it. -/
theorem readDigits_toDigits (n : Nat) {rest : List Char} (hrest : Follows rest) :
    readDigits (Nat.toDigits 10 n ++ rest) = some (Nat.toDigits 10 n, rest) := by
  obtain ⟨htake, hdrop, -, -⟩ := hrest.ends
  obtain ⟨c, digits, hdigits⟩ := List.exists_cons_of_ne_nil (Nat.toDigits_ne_nil (n := n) (b := 10))
  rw [readDigits, List.takeWhile_append_of_pos (isDigit_toDigits n),
    List.dropWhile_append_of_pos (isDigit_toDigits n), htake, hdrop, List.append_nil, hdigits]

theorem readWhole_toDigits (n : Nat) {rest : List Char} (hrest : Follows rest) :
    readWhole (Nat.toDigits 10 n ++ rest) = some (Nat.toDigits 10 n, rest) := by
  -- zero is the one number whose digits are read by the case of a leading zero
  by_cases hn : n = 0
  · subst hn
    rfl
  · have hdigits := readDigits_toDigits n hrest
    have hhead := head?_toDigits_ne hn
    unfold readWhole
    split
    next rest' heq =>
      -- only zero is written with a zero in front
      obtain ⟨c, digits, hcons⟩ :=
        List.exists_cons_of_ne_nil (Nat.toDigits_ne_nil (n := n) (b := 10))
      rw [hcons] at heq hhead
      exact absurd (congrArg some (List.cons.inj heq).1) hhead
    next => exact hdigits

/-- The digits of a machine word are read as that word. -/
theorem word?_toDigits {n : Nat} (hn : n < UInt64.size) : word? (Nat.toDigits 10 n) = some n := by
  -- the largest number of 64 bits has twenty digits, so the bound on the length refuses none of
  -- them
  have hlength : (Nat.toDigits 10 n).length ≤ 20 :=
    (Nat.length_toDigits_le_iff (by decide) (by decide)).mpr (Nat.lt_trans hn (by decide))
  have hdecimal : decimal (Nat.toDigits 10 n) = n := Nat.ofDigitChars_ten_toDigits
  rw [word?, if_pos hlength, hdecimal]
  exact if_pos hn

/-- A natural number of at most 64 bits is read back. -/
theorem readNumber_toDigits {n : Nat} (hn : n < UInt64.size) {rest : List Char}
    (hrest : Follows rest) :
    readNumber (Nat.toDigits 10 n ++ rest) = some (.number (some n), rest) := by
  obtain ⟨-, -, hfraction, hexponent⟩ := hrest.ends
  have hwhole := readWhole_toDigits n hrest
  have hdigit := isDigit_toDigits n
  unfold readNumber
  split
  next negative cs hsign =>
    split at hsign
    next rest' heq =>
      obtain ⟨c, digits, hcons⟩ :=
        List.exists_cons_of_ne_nil (Nat.toDigits_ne_nil (n := n) (b := 10))
      rw [hcons] at heq hdigit
      obtain rfl := (List.cons.inj heq).1
      exact absurd (hdigit '-' List.mem_cons_self) (by decide)
    next =>
      obtain ⟨rfl, rfl⟩ := Prod.mk.inj hsign
      simp [hwhole, hfraction, hexponent, word?_toDigits hn]

/-! ## Values -/

/-- Wherever a value may stand, the text is read as that value, and what follows is left. -/
structure ReadsAs (t : String) (j : Json) : Prop where
  /-- The text begins with neither a blank nor the end of an array. -/
  exists_cons : ∃ c cs, t.toList = c :: cs ∧ isBlank c = false ∧ c ≠ ']'
  readValue_append : ∀ fuel rest, 2 * t.toList.length ≤ fuel → Follows rest →
    readValue fuel (t.toList ++ rest) = some (j, rest)

/-- Nothing is skipped before a character that is no blank. -/
theorem skipBlanks_cons {c : Char} (h : isBlank c = false) (cs : List Char) :
    skipBlanks (c :: cs) = c :: cs := by
  simp [skipBlanks, h]

theorem readsAs_null : ReadsAs "null" .null where
  exists_cons := ⟨'n', _, rfl, rfl, by decide⟩
  readValue_append fuel rest hfuel _ := by
    rw [show "null".toList.length = 4 from rfl] at hfuel
    obtain ⟨fuel, rfl⟩ : ∃ k, fuel = k + 1 := ⟨fuel - 1, by omega⟩
    rfl

/-- A string that is written is read as itself. -/
theorem readsAs_writeString (s : String) : ReadsAs (writeString s) (.string (some s)) where
  exists_cons := ⟨'"', _, toList_writeString s, rfl, by decide⟩
  readValue_append fuel rest hfuel _ := by
    rw [toList_writeString, List.length_cons] at hfuel
    obtain ⟨fuel, rfl⟩ : ∃ k, fuel = k + 1 := ⟨fuel - 1, by omega⟩
    rw [toList_writeString, List.cons_append, List.append_assoc, readValue, skipBlanks_cons rfl]
    simp [readString_writeString]

/-- A number is written by its decimal digits. -/
theorem toList_writeNat (n : Nat) : (writeNat n).toList = Nat.toDigits 10 n :=
  Nat.toList_repr

theorem isBlank_of_isDigit {c : Char} (h : c.isDigit = true) : isBlank c = false := by
  cases hblank : isBlank c with
  | false => rfl
  | true =>
    simp only [isBlank, Bool.or_eq_true, beq_iff_eq] at hblank
    rcases hblank with ((rfl | rfl) | rfl) | rfl <;> cases h

/-- A value that begins with a digit is a number. -/
theorem readValue_of_isDigit {c : Char} (h : c.isDigit = true) (fuel : Nat) (cs : List Char) :
    readValue (fuel + 1) (c :: cs) = readNumber (c :: cs) := by
  rw [readValue, skipBlanks_cons (isBlank_of_isDigit h)]
  split
  case h_1 heq | h_2 heq | h_3 heq | h_4 heq | h_5 heq | h_6 heq =>
    obtain rfl := (List.cons.inj heq).1
    cases h
  case h_7 => rfl

/-- A number that is written is read as itself. -/
theorem readsAs_writeNat {n : Nat} (hn : n < UInt64.size) :
    ReadsAs (writeNat n) (.number (some n)) := by
  obtain ⟨c, digits, hdigits⟩ := List.exists_cons_of_ne_nil (Nat.toDigits_ne_nil (n := n) (b := 10))
  have hdigit : c.isDigit = true := isDigit_toDigits n c (hdigits ▸ List.mem_cons_self)
  have htext : (writeNat n).toList = c :: digits := (toList_writeNat n).trans hdigits
  refine ⟨⟨c, digits, htext, isBlank_of_isDigit hdigit, ?_⟩, fun fuel rest hfuel hrest => ?_⟩
  · rintro rfl
    cases hdigit
  · rw [htext, List.length_cons] at hfuel
    obtain ⟨fuel, rfl⟩ : ∃ k, fuel = k + 1 := ⟨fuel - 1, by omega⟩
    rw [htext, List.cons_append, readValue_of_isDigit hdigit, ← List.cons_append, ← hdigits]
    exact readNumber_toDigits hn hrest

/-! ## Arrays and objects -/

/-- No value that is written starts with a blank. -/
theorem ReadsAs.skipBlanks {t : String} {j : Json} (h : ReadsAs t j) (cs : List Char) :
    skipBlanks (t.toList ++ cs) = t.toList ++ cs := by
  obtain ⟨c, rest, htext, hblank, -⟩ := h.exists_cons
  rw [htext, List.cons_append, skipBlanks_cons hblank]

/-- Items are written with a comma between them. -/
theorem toList_intercalate_cons (t : String) {ts : List String} (hts : ts ≠ []) :
    (",".intercalate (t :: ts)).toList = t.toList ++ ',' :: (",".intercalate ts).toList := by
  rw [String.intercalate_cons_of_ne_nil hts, String.toList_append, String.toList_append,
    List.append_assoc]
  rfl

variable {fuel : Nat} {cs rest : List Char}

/-- An item before a comma is followed by another. -/
theorem readItems_comma {item : Json} (acc : List Json)
    (h : readValue fuel cs = some (item, ',' :: rest)) :
    readItems (fuel + 1) acc cs = readItems fuel (item :: acc) rest := by
  rw [readItems, h]
  rfl

/-- An item before the bracket is the last. -/
theorem readItems_bracket {item : Json} (acc : List Json)
    (h : readValue fuel cs = some (item, ']' :: rest)) :
    readItems (fuel + 1) acc cs = some (.array (item :: acc).reverse, rest) := by
  rw [readItems, h]
  rfl

/-- The items of an array are read one after the other, each up to the comma or the bracket after
it. -/
theorem readItems_append {items : List (String × Json)} (hitems : items ≠ [])
    (h : ∀ item ∈ items, ReadsAs item.1 item.2) (acc : List Json) (fuel : Nat) (rest : List Char)
    (hfuel : 2 * (",".intercalate (items.map (·.1))).toList.length < fuel) :
    readItems fuel acc ((",".intercalate (items.map (·.1))).toList ++ ']' :: rest) =
      some (.array (acc.reverse ++ items.map (·.2)), rest) := by
  induction items generalizing acc fuel with
  | nil => exact absurd rfl hitems
  | cons item tail ih =>
    obtain ⟨fuel, rfl⟩ : ∃ k, fuel = k + 1 := ⟨fuel - 1, by omega⟩
    have hitem := (h item List.mem_cons_self).readValue_append fuel
    rw [List.map_cons] at hfuel ⊢
    -- the last item is followed by the bracket and any other by a comma, and both end a number
    by_cases htail : tail = []
    · subst htail
      rw [List.map_nil, String.intercalate_singleton] at hfuel ⊢
      rw [readItems_bracket acc (hitem _ (by omega) (follows_cons (.inr (.inl rfl)) rest)),
        List.reverse_cons]
      rfl
    · rw [toList_intercalate_cons _ (by simpa using htail), List.length_append, List.length_cons]
        at hfuel
      rw [toList_intercalate_cons _ (by simpa using htail), List.append_assoc, List.cons_append,
        readItems_comma acc (hitem _ (by omega) (follows_cons (.inl rfl) _)),
        ih htail (fun item' hitem' => h item' (List.mem_cons_of_mem _ hitem')) _ _ (by omega),
        List.reverse_cons, List.append_assoc]
      rfl

/-- What is joined begins like its first part. -/
theorem ReadsAs.exists_cons_intercalate {t : String} {j : Json} (h : ReadsAs t j)
    (ts : List String) :
    ∃ c cs, (",".intercalate (t :: ts)).toList = c :: cs ∧ isBlank c = false ∧ c ≠ ']' := by
  obtain ⟨c, cs, htext, hopens⟩ := h.exists_cons
  by_cases hts : ts = []
  · subst hts
    exact ⟨c, cs, by rw [String.intercalate_singleton, htext], hopens⟩
  · exact ⟨c, _, by rw [toList_intercalate_cons t hts, htext, List.cons_append], hopens⟩

theorem toList_writeArray (ts : List String) :
    (writeArray ts).toList = '[' :: ((",".intercalate ts).toList ++ [']']) := by
  rw [writeArray, String.toList_append, String.toList_append]
  rfl

/-- A bracket opens an array, which may be empty. -/
theorem readValue_bracket (fuel : Nat) (cs : List Char) : readValue (fuel + 1) ('[' :: cs) =
    match skipBlanks cs with
    | ']' :: rest => some (.array [], rest)
    | cs => readItems fuel [] cs :=
  rfl

/-- An array is read back if its items are. -/
theorem readsAs_writeArray {items : List (String × Json)}
    (h : ∀ item ∈ items, ReadsAs item.1 item.2) :
    ReadsAs (writeArray (items.map (·.1))) (.array (items.map (·.2))) := by
  refine ⟨⟨'[', _, toList_writeArray _, rfl, by decide⟩, fun fuel rest hfuel hrest => ?_⟩
  rw [toList_writeArray, List.length_cons, List.length_append] at hfuel
  obtain ⟨fuel, rfl⟩ : ∃ k, fuel = k + 1 := ⟨fuel - 1, by omega⟩
  rw [toList_writeArray, List.cons_append, List.append_assoc, List.singleton_append,
    readValue_bracket]
  cases items with
  | nil => rfl
  | cons item tail =>
    -- no item begins with a bracket, so the array is not taken for an empty one
    have hread := readItems_append (List.cons_ne_nil item tail) h [] fuel rest (by omega)
    obtain ⟨c, cs, htext, hblank, hne⟩ :=
      (h item List.mem_cons_self).exists_cons_intercalate (tail.map (·.1))
    rw [List.map_cons, htext, List.cons_append] at hread ⊢
    rw [skipBlanks_cons hblank]
    split
    next heq => exact absurd (List.cons.inj heq).1 hne
    next => exact hread

/-- The text of a field. -/
def fieldText (name text : String) : String :=
  writeString name ++ ":" ++ text

/-- A field is its name between quotes, a colon and its value. -/
theorem toList_fieldText (name text : String) : (fieldText name text).toList =
    '"' :: (name.toList.flatMap (fun c => (escapeChar c).toList) ++ '"' :: ':' :: text.toList) := by
  rw [fieldText, String.toList_append, String.toList_append, toList_writeString, List.append_assoc,
    List.cons_append, List.append_assoc]
  rfl

/-- The name and the value of a field are read, and the character after it decides how it goes
on. -/
theorem readFields_fieldText (name text : String) {value : Json} {c : Char}
    (acc : List (Option String × Json))
    (h : readValue fuel (text.toList ++ cs) = some (value, c :: rest)) :
    (c = ',' → readFields (fuel + 1) acc ((fieldText name text).toList ++ cs) =
      readFields fuel ((some name, value) :: acc) rest) ∧
    (c = '}' → readFields (fuel + 1) acc ((fieldText name text).toList ++ cs) =
      some (.object ((some name, value) :: acc).reverse, rest)) := by
  have hname := readString_writeString name (':' :: text.toList ++ cs)
  rw [toList_fieldText, List.cons_append, List.append_assoc, readFields,
    skipBlanks_cons (c := '"') rfl]
  simp only [List.cons_append] at hname ⊢
  rw [hname]
  simp only [skipBlanks_cons (c := ':') rfl, h]
  constructor
  · rintro rfl
    rfl
  · rintro rfl
    rfl

/-- A field that is written: its name, the text of its value, and the value. -/
structure Field where
  name : String
  text : String
  value : Json

/-- The fields of an object are read one after the other, each up to the comma or the brace after
it. -/
theorem readFields_append {fields : List Field} (hfields : fields ≠ [])
    (h : ∀ f ∈ fields, ReadsAs f.text f.value) (acc : List (Option String × Json)) (fuel : Nat)
    (rest : List Char)
    (hfuel :
      2 * (",".intercalate (fields.map fun f => fieldText f.name f.text)).toList.length < fuel) :
    readFields fuel acc
        ((",".intercalate (fields.map fun f => fieldText f.name f.text)).toList ++ '}' :: rest) =
      some (.object (acc.reverse ++ fields.map fun f => (some f.name, f.value)), rest) := by
  induction fields generalizing acc fuel with
  | nil => exact absurd rfl hfields
  | cons f tail ih =>
    obtain ⟨fuel, rfl⟩ : ∃ k, fuel = k + 1 := ⟨fuel - 1, by omega⟩
    have hvalue := (h f List.mem_cons_self).readValue_append fuel
    have hlength : f.text.toList.length ≤ (fieldText f.name f.text).toList.length := by
      rw [toList_fieldText]
      simp only [List.length_cons, List.length_append]
      omega
    rw [List.map_cons] at hfuel ⊢
    by_cases htail : tail = []
    · subst htail
      rw [List.map_nil, String.intercalate_singleton] at hfuel ⊢
      rw [(readFields_fieldText _ _ acc
        (hvalue _ (by omega) (follows_cons (.inr (.inr rfl)) rest))).2 rfl, List.reverse_cons]
      rfl
    · rw [toList_intercalate_cons _ (by simpa using htail), List.length_append, List.length_cons]
        at hfuel
      rw [toList_intercalate_cons _ (by simpa using htail), List.append_assoc, List.cons_append,
        (readFields_fieldText _ _ acc (hvalue _ (by omega) (follows_cons (.inl rfl) _))).1 rfl,
        ih htail (fun f' hf' => h f' (List.mem_cons_of_mem _ hf')) _ _ (by omega),
        List.reverse_cons, List.append_assoc]
      rfl

theorem toList_writeObject (fields : List Field) :
    (writeObject (fields.map fun f => (f.name, f.text))).toList =
      '{' :: ((",".intercalate (fields.map fun f => fieldText f.name f.text)).toList ++ ['}']) := by
  rw [writeObject, String.toList_append, String.toList_append, List.map_map]
  rfl

/-- A brace opens an object, which may be empty. -/
theorem readValue_brace (fuel : Nat) (cs : List Char) : readValue (fuel + 1) ('{' :: cs) =
    match skipBlanks cs with
    | '}' :: rest => some (.object [], rest)
    | cs => readFields fuel [] cs :=
  rfl

/-- An object is read back if the values of its fields are. -/
theorem readsAs_writeObject {fields : List Field} (h : ∀ f ∈ fields, ReadsAs f.text f.value) :
    ReadsAs (writeObject (fields.map fun f => (f.name, f.text)))
      (.object (fields.map fun f => (some f.name, f.value))) := by
  refine ⟨⟨'{', _, toList_writeObject _, rfl, by decide⟩, fun fuel rest hfuel hrest => ?_⟩
  rw [toList_writeObject, List.length_cons, List.length_append] at hfuel
  obtain ⟨fuel, rfl⟩ : ∃ k, fuel = k + 1 := ⟨fuel - 1, by omega⟩
  rw [toList_writeObject, List.cons_append, List.append_assoc, List.singleton_append,
    readValue_brace]
  cases fields with
  | nil => rfl
  | cons f tail =>
    have hread := readFields_append (List.cons_ne_nil f tail) h [] fuel rest (by omega)
    obtain ⟨cs, htext⟩ : ∃ cs,
        (",".intercalate ((f :: tail).map fun f => fieldText f.name f.text)).toList =
        '"' :: cs := by
      by_cases htail : tail = []
      · subst htail
        rw [List.map_cons, List.map_nil, String.intercalate_singleton, toList_fieldText]
        exact ⟨_, rfl⟩
      · rw [List.map_cons, toList_intercalate_cons _ (by simpa using htail), toList_fieldText]
        exact ⟨_, rfl⟩
    rw [htext, List.cons_append] at hread ⊢
    exact hread

/-! ## Texts -/

/-- A text that is read as a value wherever one may stand is read as that value when it stands
alone. -/
theorem parse?_of_readsAs {t : String} {j : Json} (h : ReadsAs t j) : parse? t = some j := by
  have hread := h.readValue_append (2 * t.toList.length + 2) [] (Nat.le_add_right _ _) follows_nil
  rw [List.append_nil] at hread
  rw [parse?, hread]
  rfl

end RingRouting.Json
