import Mathlib.Data.List.Infix
import Mathlib.Data.List.TakeWhile
import RingRouting.Target

/-!
# Targets that are read back

Reading forgets the slashes in front of the endpoint, and writing puts a single one there. So not
every text comes back from being read and written, and not every target from being written and read.
A text is read as a target exactly if the target is canonical and the text spells it, that is, has
it written with any number of further slashes (`parse_eq_ok_iff`); what comes back from what follows
from that.

The end of the scheme is what needs care. It may be the beginning of a `://`, as in `a:/://b/c`.
Still the first `://` is the one that is written behind the scheme, because none begins within
another one (`prefix_of_prefix_append`). Main statement: `parse_toString_iff`.
-/

namespace RingRouting.Target

/-! ## The end of the scheme -/

/-- What ends the scheme. -/
def mark : List Char := [':', '/', '/']

/-- The first `://` of the text stands between these two parts. -/
structure FirstMark (text front back : List Char) : Prop where
  eq : text = front ++ mark ++ back
  first : ∀ front' back', text = front' ++ mark ++ back' → front.length ≤ front'.length

variable {l front back : List Char}

/-- A mark that begins in front of another one ends there as well. -/
theorem prefix_of_prefix_append (hfront : front ≠ []) (h : mark <+: front ++ mark ++ back) :
    mark <+: front := by
  match front with
  | [a] => simp [mark] at h
  | [a, b] => simp [mark] at h
  | a :: b :: c :: rest => simpa [mark] using h

theorem splitScheme?_cons {c : Char} (h : ¬mark <+: c :: l) :
    splitScheme? (c :: l) = (splitScheme? l).map fun (scheme, rest) => (c :: scheme, rest) := by
  rw [splitScheme?]
  rintro rest rfl rfl
  exact h ⟨rest, rfl⟩

/-- The first mark splits a text. -/
theorem splitScheme?_append (h : ¬mark <:+: front) :
    splitScheme? (front ++ mark ++ back) = some (front, back) := by
  induction front with
  | nil => rfl
  | cons c front ih =>
    rw [List.infix_cons_iff, not_or] at h
    have hprefix : ¬mark <+: c :: (front ++ mark ++ back) :=
      fun hmark => h.1 (prefix_of_prefix_append (List.cons_ne_nil c front) hmark)
    rw [List.cons_append, List.cons_append, splitScheme?_cons hprefix, ih h.2]
    rfl

theorem eq_of_splitScheme? (h : splitScheme? l = some (front, back)) :
    l = front ++ mark ++ back ∧ ¬mark <:+: front := by
  induction l generalizing front with
  | nil => cases h
  | cons c l ih =>
    by_cases hmark : mark <+: c :: l
    · obtain ⟨rest, hrest⟩ := hmark
      rw [← hrest] at h
      obtain ⟨rfl, rfl⟩ : [] = front ∧ rest = back := by simpa [mark, splitScheme?] using h
      exact ⟨hrest.symm, by simp [mark]⟩
    · rw [splitScheme?_cons hmark] at h
      obtain ⟨⟨scheme, rest⟩, hsplit, heq⟩ := Option.map_eq_some_iff.mp h
      obtain ⟨rfl, rfl⟩ := Prod.mk.inj heq
      obtain ⟨hl, hscheme⟩ := ih hsplit
      refine ⟨by rw [hl]; rfl, ?_⟩
      rw [List.infix_cons_iff, not_or]
      refine ⟨fun hprefix => hmark ?_, hscheme⟩
      rw [hl, List.append_assoc, ← List.cons_append]
      exact hprefix.trans (List.prefix_append _ _)

/-- A text is split at its first mark, and nowhere else. -/
theorem splitScheme?_eq_some_iff :
    splitScheme? l = some (front, back) ↔ l = front ++ mark ++ back ∧ ¬mark <:+: front := by
  refine ⟨eq_of_splitScheme?, ?_⟩
  rintro ⟨rfl, h⟩
  exact splitScheme?_append h

/-- A text is split at its first mark. -/
theorem splitScheme?_eq_some_iff_firstMark :
    splitScheme? l = some (front, back) ↔ FirstMark l front back := by
  rw [splitScheme?_eq_some_iff]
  constructor
  · rintro ⟨hl, hfront⟩
    refine ⟨hl, fun front' back' hl' => ?_⟩
    by_contra hlength
    -- an earlier mark has yet another one in front of it, or the text is split there
    by_cases hfront' : mark <:+: front'
    · have hprefix' : front' <+: l := by
        rw [hl', List.append_assoc]
        exact List.prefix_append _ _
      have hprefix : front <+: l := by
        rw [hl, List.append_assoc]
        exact List.prefix_append _ _
      have hshorter := List.prefix_of_prefix_length_le hprefix' hprefix (Nat.le_of_not_le hlength)
      exact hfront (hfront'.trans hshorter.isInfix)
    · have hsplit := splitScheme?_eq_some_iff.mpr ⟨hl, hfront⟩
      rw [splitScheme?_eq_some_iff.mpr ⟨hl', hfront'⟩] at hsplit
      cases hsplit
      exact hlength (Nat.le_refl _)
  · rintro ⟨hl, hfirst⟩
    refine ⟨hl, ?_⟩
    rintro ⟨x, y, rfl⟩
    have hlength := hfirst x (y ++ mark ++ back) (by rw [hl]; simp only [List.append_assoc])
    simp only [List.length_append, mark, List.length_cons] at hlength
    omega

/-! ## Authority and endpoint -/

theorem head?_dropWhile_eq_ne (c : Char) (l : List Char) :
    (l.dropWhile (· = c)).head? ≠ some c := by
  intro h
  have hnot := List.head?_dropWhile_not (· = c) l
  rw [h] at hnot
  exact of_decide_eq_false hnot rfl

theorem exists_cons_of_dropWhile_ne {c : Char} (h : l.dropWhile (· ≠ c) ≠ []) :
    ∃ rest, l.dropWhile (· ≠ c) = c :: rest := by
  obtain ⟨d, rest, hd⟩ := List.exists_cons_of_ne_nil h
  have hnot := List.head?_dropWhile_not (· ≠ c) l
  rw [hd] at hnot
  obtain rfl : d = c := not_not.mp (of_decide_eq_false hnot)
  exact ⟨rest, hd⟩

theorem exists_replicate_append_dropWhile (c : Char) (l : List Char) :
    ∃ n, List.replicate n c ++ l.dropWhile (· = c) = l := by
  have hleading : ∀ d ∈ l.takeWhile (· = c), d = c :=
    fun d hd => by simpa using List.mem_takeWhile_imp hd
  refine ⟨(l.takeWhile (· = c)).length, ?_⟩
  rw [← List.eq_replicate_of_mem hleading, List.takeWhile_append_dropWhile]

/-- What follows the mark is an authority, a slash, any number of further slashes and the
endpoint. -/
theorem cuts_eq_iff {rest authority endpoint : List Char} (hendpoint : endpoint ≠ []) :
    (rest.takeWhile (· ≠ '/') = authority ∧
        (rest.dropWhile (· ≠ '/')).dropWhile (· = '/') = endpoint) ↔
      '/' ∉ authority ∧ endpoint.head? ≠ some '/' ∧
        ∃ n, rest = authority ++ '/' :: (List.replicate n '/' ++ endpoint) := by
  constructor
  · rintro ⟨rfl, rfl⟩
    refine ⟨fun hmem => absurd (List.mem_takeWhile_imp hmem) (by decide), head?_dropWhile_eq_ne _ _,
      ?_⟩
    obtain ⟨path, hpath⟩ := exists_cons_of_dropWhile_ne fun hnil => hendpoint (congrArg _ hnil)
    obtain ⟨n, hslashes⟩ := exists_replicate_append_dropWhile '/' path
    refine ⟨n, ?_⟩
    rw [hpath, List.dropWhile_cons_of_pos (by decide), hslashes, ← hpath,
      List.takeWhile_append_dropWhile]
  · rintro ⟨hauthority, hbare, n, rfl⟩
    have hplain : ∀ c ∈ authority, decide (c ≠ '/') = true :=
      fun c hc => decide_eq_true fun heq => hauthority (heq ▸ hc)
    have hslashes : ∀ c ∈ List.replicate n '/', decide (c = '/') = true :=
      fun c hc => decide_eq_true (List.eq_of_mem_replicate hc)
    rw [List.takeWhile_append_of_pos hplain, List.takeWhile_cons_of_neg (by decide),
      List.append_nil, List.dropWhile_append_of_pos hplain, List.dropWhile_cons_of_neg (by decide),
      List.dropWhile_cons_of_pos (by decide), List.dropWhile_append_of_pos hslashes]
    refine ⟨rfl, ?_⟩
    cases endpoint with
    | nil => rfl
    | cons c endpoint => exact List.dropWhile_cons_of_neg (by simpa using hbare)

/-- There is an endpoint where a slash is followed, sooner or later, by something else. -/
theorem endpoint_ne_nil_iff {rest : List Char} :
    (rest.dropWhile (· ≠ '/')).dropWhile (· = '/') ≠ [] ↔
    ∃ authority path, rest = authority ++ '/' :: path ∧ ∃ c ∈ path, c ≠ '/' := by
  constructor
  · intro hendpoint
    obtain ⟨-, hbare, n, hrest⟩ := (cuts_eq_iff hendpoint).mp ⟨rfl, rfl⟩
    obtain ⟨c, endpoint, heq⟩ := List.exists_cons_of_ne_nil hendpoint
    rw [heq] at hbare hrest
    exact ⟨_, _, hrest, c, by simp, fun hc => hbare (congrArg some hc)⟩
  · rintro ⟨authority, path, rfl, c, hc, hne⟩ hnil
    rw [List.dropWhile_eq_nil_iff] at hnil
    refine hne (of_decide_eq_true (hnil c ?_))
    -- the slash in question need not be the first one
    rw [List.dropWhile_append]
    split
    · rw [List.dropWhile_cons_of_neg (by decide)]
      exact List.mem_cons_of_mem _ hc
    · exact List.mem_append_right _ (List.mem_cons_of_mem _ hc)

/-! ## Reading and writing -/

/-- The text has something in front of its first `://`, and behind that a slash which is followed,
sooner or later, by something else than a slash. -/
def Readable (text : String) : Prop :=
  ∃ scheme rest, FirstMark text.toList scheme rest ∧ scheme ≠ [] ∧
    ∃ authority path, rest = authority ++ '/' :: path ∧ ∃ c ∈ path, c ≠ '/'

/-- The parts of the target can be told from the text that is written for it. -/
structure Canonical (t : Target) : Prop where
  scheme_ne : t.scheme.toList ≠ []
  scheme_free : ¬mark <:+: t.scheme.toList
  authority_free : '/' ∉ t.authority.toList
  endpoint_ne : t.endpoint.toList ≠ []
  endpoint_bare : t.endpoint.toList.head? ≠ some '/'

instance (t : Target) : Decidable t.Canonical :=
  decidable_of_iff (t.scheme.toList ≠ [] ∧ ¬mark <:+: t.scheme.toList ∧ '/' ∉ t.authority.toList ∧
      t.endpoint.toList ≠ [] ∧ t.endpoint.toList.head? ≠ some '/')
    ⟨fun ⟨h₁, h₂, h₃, h₄, h₅⟩ => ⟨h₁, h₂, h₃, h₄, h₅⟩,
      fun ⟨h₁, h₂, h₃, h₄, h₅⟩ => ⟨h₁, h₂, h₃, h₄, h₅⟩⟩

/-- The text is what is written for the target, but for further slashes in front of the endpoint. -/
def Spells (text : String) (t : Target) : Prop :=
  ∃ n, text.toList = t.scheme.toList ++ mark ++
    (t.authority.toList ++ '/' :: (List.replicate n '/' ++ t.endpoint.toList))

variable {text : String} {t : Target}

/-- A target is read from the cuts of its text. -/
theorem parse_eq_ok_iff_cuts : parse text = .ok t ↔
    ∃ rest, splitScheme? text.toList = some (t.scheme.toList, rest) ∧
      t.scheme.toList ≠ [] ∧ t.endpoint.toList ≠ [] ∧
      rest.takeWhile (· ≠ '/') = t.authority.toList ∧
      (rest.dropWhile (· ≠ '/')).dropWhile (· = '/') = t.endpoint.toList := by
  constructor
  · intro h
    unfold parse at h
    split at h
    next => cases h
    next scheme rest hsplit =>
      split at h
      next => cases h
      next hscheme =>
        dsimp only at h
        split at h
        next => cases h
        next hendpoint =>
          cases h
          simp only [String.toList_ofList]
          exact ⟨rest, hsplit, hscheme, hendpoint, rfl, rfl⟩
  · rintro ⟨rest, hsplit, hscheme, hendpoint, hauthority, hpath⟩
    unfold parse
    simp only [hsplit, hauthority, hpath, if_neg hscheme, if_neg hendpoint, String.ofList_toList]

/-- A text is read as the canonical target that it spells. -/
theorem parse_eq_ok_iff : parse text = .ok t ↔ t.Canonical ∧ Spells text t := by
  rw [parse_eq_ok_iff_cuts]
  constructor
  · rintro ⟨rest, hsplit, hscheme, hendpoint, hcuts⟩
    obtain ⟨htext, hfree⟩ := splitScheme?_eq_some_iff.mp hsplit
    obtain ⟨hauthority, hbare, n, hrest⟩ := (cuts_eq_iff hendpoint).mp hcuts
    rw [hrest] at htext
    exact ⟨⟨hscheme, hfree, hauthority, hendpoint, hbare⟩, n, htext⟩
  · rintro ⟨h, n, htext⟩
    exact ⟨_, splitScheme?_eq_some_iff.mpr ⟨htext, h.scheme_free⟩, h.scheme_ne, h.endpoint_ne,
      (cuts_eq_iff h.endpoint_ne).mpr ⟨h.authority_free, h.endpoint_bare, n, rfl⟩⟩

/-- Read is every readable text, and no other. -/
theorem exists_parse_eq_ok_iff : (∃ t, parse text = .ok t) ↔ Readable text := by
  constructor
  · rintro ⟨t, h⟩
    obtain ⟨rest, hsplit, hscheme, hendpoint, -, hpath⟩ := parse_eq_ok_iff_cuts.mp h
    rw [← hpath] at hendpoint
    exact ⟨_, rest, splitScheme?_eq_some_iff_firstMark.mp hsplit, hscheme,
      endpoint_ne_nil_iff.mp hendpoint⟩
  · rintro ⟨scheme, rest, hmark, hscheme, hpath⟩
    refine ⟨⟨.ofList scheme, .ofList (rest.takeWhile (· ≠ '/')),
      .ofList ((rest.dropWhile (· ≠ '/')).dropWhile (· = '/'))⟩,
      parse_eq_ok_iff_cuts.mpr ⟨rest, ?_, ?_, ?_, ?_, ?_⟩⟩
    all_goals rw [String.toList_ofList]
    · exact splitScheme?_eq_some_iff_firstMark.mpr hmark
    · exact hscheme
    · exact endpoint_ne_nil_iff.mpr hpath

/-- A target is spelled by what is written for it. -/
theorem spells_toString (t : Target) : Spells (toString t) t := by
  refine ⟨0, ?_⟩
  show (t.scheme ++ "://" ++ t.authority ++ "/" ++ t.endpoint).toList = _
  simp only [String.toList_append, List.append_assoc]
  rfl

/-- What is written for a target is read as it exactly if it is canonical. -/
theorem parse_toString_eq_ok_iff : parse (toString t) = .ok t ↔ t.Canonical :=
  parse_eq_ok_iff.trans (and_iff_left (spells_toString t))

/-- A scheme may end with the beginning of a `://`, but not with a whole one. -/
example : Canonical ⟨"a:/", "b", "c://d/"⟩ ∧ ¬Canonical ⟨"a://", "b", "c://d/"⟩ := by decide

/-- The target of a service is canonical unless the service is empty or begins with a slash. -/
theorem canonical_ofService_iff {service : String} :
    (ofService service).Canonical ↔ service ≠ "" ∧ service.toList.head? ≠ some '/' := by
  rw [Ne, ← String.toList_eq_nil_iff]
  constructor
  · exact fun h => ⟨h.endpoint_ne, h.endpoint_bare⟩
  · rintro ⟨hne, hbare⟩
    exact ⟨(by decide : ownScheme.toList ≠ []), (by decide : ¬mark <:+: ownScheme.toList),
      (by decide : '/' ∉ "".toList), hne, hbare⟩

/-- Which texts are read, which targets they are read as, and which targets come back from being
written: the canonical ones, to which all that is read belongs. The target of a service comes back
from its text unless the service is empty or begins with a slash. -/
theorem parse_toString_iff :
    (∀ text, (∃ t, parse text = .ok t) ↔ Readable text) ∧
      (∀ text t, parse text = .ok t → parse (toString t) = .ok t) ∧
      (∀ t, parse (toString t) = .ok t ↔ t.Canonical) ∧
      (∀ t, (∃ text, parse text = .ok t) ↔ t.Canonical) ∧
      (∀ overrides service, overrides service = none →
        (parse (textFor overrides service) = .ok (ofService service) ↔
          service ≠ "" ∧ service.toList.head? ≠ some '/')) := by
  refine ⟨fun text => exists_parse_eq_ok_iff, fun text t h => ?_, fun t => parse_toString_eq_ok_iff,
    fun t => ⟨fun ⟨text, h⟩ => (parse_eq_ok_iff.mp h).1,
      fun h => ⟨_, parse_toString_eq_ok_iff.mpr h⟩⟩,
    fun overrides service h => ?_⟩
  · exact parse_toString_eq_ok_iff.mpr (parse_eq_ok_iff.mp h).1
  · rw [textFor, h, Option.getD_none, parse_toString_eq_ok_iff, canonical_ofService_iff]

/-- A scheme that ends with the beginning of a `://`, an endpoint with a whole one in it and a slash
too many; and a service without an override, while there is one for another service. -/
theorem parse_toString_nested :
    let t : Target := ⟨"a:/", "b", "c://d/"⟩
    let overrides : String → Option String := fun service =>
      if service = "orders" then some "dns:///10.0.0.1:9000" else none
    parse "a:/://b//c://d/" = .ok t ∧ parse (toString t) = .ok t ∧
      overrides "billing" = none ∧ parse (textFor overrides "billing") =
        .ok (ofService "billing") := by
  intro t overrides
  obtain ⟨-, hread, -, -, hservice⟩ := parse_toString_iff
  have hparse : parse "a:/://b//c://d/" = .ok t := by decide
  have hnone : overrides "billing" = none := rfl
  exact ⟨hparse, hread _ t hparse, hnone, (hservice overrides "billing" hnone).mpr (by decide)⟩

end RingRouting.Target
