import RingRouting.Node.Json
import RingRouting.Policy
import RingRouting.Proofs.Json.Reading

/-!
# Reading back what was written

For each record the fields that are written are listed once (`fields`), each with its name, its text
and its value. Its text is the object of these fields (`toJson_eq`), which is read back as long as
their texts are (`readsAs_toJson`), and the record can be told from their values (`ofJson?_fields`).
A field that is left out when it has nothing to say is the only place where two of these need a case
split. Main statement: `parse?_toJson`.
-/

namespace RingRouting

namespace Json

/-- The text of an object with these fields. -/
def textOf (fields : List Field) : String :=
  writeObject (fields.map fun f => (f.name, f.text))

/-- The object with these fields. -/
def valueOf (fields : List Field) : Json :=
  .object (fields.map fun f => (some f.name, f.value))

/-- A field that holds a string. -/
def Field.ofString (name s : String) : Field :=
  ⟨name, writeString s, .string (some s)⟩

/-- A field that holds a natural number. -/
def Field.ofNat (name : String) (n : Nat) : Field :=
  ⟨name, writeNat n, .number (some n)⟩

/-- The field, unless it is left out. -/
def Field.unless (f : Field) (absent : Prop) [Decidable absent] : List Field :=
  if absent then [] else [f]

/-- A field that may be left out is read as its value where it is written. -/
theorem Field.readsAs_unless {f : Field} (h : ReadsAs f.text f.value)
    (absent : Prop) [Decidable absent] :
    ∀ g ∈ f.unless absent, ReadsAs g.text g.value := by
  unfold Field.unless
  split
  next => exact nofun
  next => exact List.forall_mem_singleton.mpr h

/-- A number within its limit is read as itself. -/
theorem natural?_number {n limit : Nat} (h : n ≤ limit) :
    (Json.number (some n)).natural? limit = some n :=
  if_pos h

/-- A list of strings is read as itself. -/
theorem texts?_strings (texts : List String) :
    (Json.array (texts.map fun s => .string (some s))).texts? = some texts := by
  unfold texts? items?
  induction texts with
  | nil => rfl
  | cons s rest ih => simp_all [List.mapM_cons, text?]

/-- A list of things each of which is read back is read back as an array. -/
theorem readsAs_map {α : Type} {text : α → String} {value : α → Json}
    (h : ∀ x, ReadsAs (text x) (value x))
    (xs : List α) : ReadsAs (writeArray (xs.map text)) (.array (xs.map value)) := by
  have hitems : ∀ item ∈ xs.map (fun x => (text x, value x)), ReadsAs item.1 item.2 := by
    simp only [List.forall_mem_map]
    exact fun x _ => h x
  have hreads := readsAs_writeArray hitems
  rwa [List.map_map, List.map_map] at hreads

end Json

open Json

/-! ## Addresses -/

namespace Address

/-- The fields that are written for an address. A missing identity is written as null. -/
def fields (a : Address) : List Field :=
  [.ofString "addr" a.addr, .ofString "server_name" a.serverName,
    match a.id with
    | some id => .ofString "id" id
    | none => ⟨"id", "null", .null⟩]

/-- An address is written as the object of its fields. -/
theorem toJson_eq (a : Address) : a.toJson = textOf a.fields := by
  obtain ⟨addr, serverName, id⟩ := a
  cases id <;> rfl

/-- What is written for an address is read as its fields. -/
theorem readsAs_toJson (a : Address) : ReadsAs a.toJson (valueOf a.fields) := by
  rw [toJson_eq]
  refine readsAs_writeObject ?_
  simp only [fields, List.forall_mem_cons]
  refine ⟨readsAs_writeString _, readsAs_writeString _, ?_, nofun⟩
  cases a.id with
  | none => exact readsAs_null
  | some id => exact readsAs_writeString id

/-- The fields of an address make the address again. -/
theorem ofJson?_fields (a : Address) : ofJson? (valueOf a.fields) = some a := by
  obtain ⟨addr, serverName, id⟩ := a
  cases id <;> rfl

end Address

/-! ## Nodes -/

namespace Node

/-- The field with the tags of a node. -/
def tagsField (n : Node) : Field :=
  ⟨"tags", writeArray (n.tags.map writeString), .array (n.tags.map fun s => .string (some s))⟩

/-- The fields that are written for a node. That of the tags is left out if there are none. -/
def fields (n : Node) : List Field :=
  [.ofString "id" n.id, .ofString "name" n.service, .ofString "host" n.host,
    .ofNat "port" n.port.toNat, .ofString "type" n.protocol.name] ++
    n.tagsField.unless (n.tags = [])

theorem toJson_eq (n : Node) : n.toJson = textOf n.fields := by
  obtain ⟨id, service, host, port, protocol, tags⟩ := n
  cases tags <;> rfl

/-- What is written for a node is read as its fields. -/
theorem readsAs_toJson (n : Node) : ReadsAs n.toJson (valueOf n.fields) := by
  have hport : n.port.toNat < UInt64.size := Nat.lt_trans n.port.toNat_lt (by decide)
  have htags : ReadsAs n.tagsField.text n.tagsField.value := readsAs_map readsAs_writeString n.tags
  rw [toJson_eq]
  refine readsAs_writeObject ?_
  simp only [fields, List.forall_mem_append, List.forall_mem_cons]
  exact ⟨⟨readsAs_writeString _, readsAs_writeString _, readsAs_writeString _,
    readsAs_writeNat hport, readsAs_writeString _, nofun⟩, Field.readsAs_unless htags _⟩

/-- The fields of a node are found under their names, the tags if they are there. -/
theorem record?_fields (n : Node) :
    (valueOf n.fields).record? ["id", "name", "host", "port", "type", "tags"] =
      some [some (.string (some n.id)), some (.string (some n.service)),
        some (.string (some n.host)), some (.number (some n.port.toNat)),
        some (.string (some n.protocol.name)),
        if n.tags = [] then none else some n.tagsField.value] := by
  obtain ⟨id, service, host, port, protocol, tags⟩ := n
  cases tags <;> rfl

/-- A protocol is known by its name. -/
theorem ofName?_name (p : Protocol) : Protocol.ofName? p.name = some p := by
  cases p <;> rfl

/-- A node is told from its fields, whatever identity one without would get. -/
theorem ofJson?_fields (fresh : String) (n : Node) : ofJson? fresh (valueOf n.fields) = some n := by
  have hport : n.port.toNat ≤ 65535 := Nat.le_of_lt_succ n.port.toNat_lt
  have htags : n.tagsField.value.texts? = some n.tags := texts?_strings n.tags
  unfold ofJson?
  rw [record?_fields]
  by_cases hnone : n.tags = []
  · obtain ⟨id, service, host, port, protocol, tags⟩ := n
    obtain rfl : tags = [] := hnone
    simp [text?, case?, natural?_number hport, ofName?_name]
  · simp [text?, case?, natural?_number hport, ofName?_name, hnone, htags]

/-- A node list is read as the array of its nodes. -/
theorem readsAs_listToJson (nodes : List Node) :
    ReadsAs (listToJson nodes) (.array (nodes.map fun n => valueOf n.fields)) :=
  readsAs_map readsAs_toJson nodes

/-- An array of nodes makes the node list again. -/
theorem listOfJson?_fields (fresh : Nat → String) (nodes : List Node) :
    listOfJson? fresh (.array (nodes.map fun n => valueOf n.fields)) = some nodes := by
  -- the identities at hand are counted from the position of the first node
  have h : ∀ first, ((nodes.map fun n => valueOf n.fields).zipIdx first).mapM
      (fun x => ofJson? (fresh x.2) x.1) = some nodes := by
    induction nodes with
    | nil => exact fun _ => rfl
    | cons n rest ih =>
      intro first
      simp only [List.map_cons, List.zipIdx_cons, List.mapM_cons, ofJson?_fields]
      rw [ih]
      rfl
  exact h 0

end Node

/-! ## Changes -/

namespace Change

/-- The fields that are written for a change. -/
def fields (c : Change) : List Field :=
  [.ofString "kind" c.kind.name,
    ⟨"nodes", Node.listToJson c.nodes, .array (c.nodes.map fun n => valueOf n.fields)⟩]

theorem toJson_eq (c : Change) : c.toJson = textOf c.fields :=
  rfl

theorem readsAs_toJson (c : Change) : ReadsAs c.toJson (valueOf c.fields) := by
  rw [toJson_eq]
  refine readsAs_writeObject ?_
  simp only [fields, List.forall_mem_cons]
  exact ⟨readsAs_writeString _, Node.readsAs_listToJson c.nodes, nofun⟩

theorem ofName?_name (k : ChangeKind) : ChangeKind.ofName? k.name = some k := by
  cases k <;> rfl

theorem record?_fields (c : Change) : (valueOf c.fields).record? ["kind", "nodes"] =
    some [some (.string (some c.kind.name)),
      some (.array (c.nodes.map fun n => valueOf n.fields))] :=
  rfl

/-- The fields of a change make the change again. -/
theorem ofJson?_fields (fresh : Nat → String) (c : Change) :
    ofJson? fresh (valueOf c.fields) = some c := by
  unfold ofJson?
  rw [record?_fields]
  simp [case?, ofName?_name, Node.listOfJson?_fields]

end Change

/-! ## Policies -/

namespace Policy

/-- The fields that are written for a policy. Zeros are left out. -/
def fields (p : Policy) : List Field :=
  (Field.ofNat "replicationFactor" p.factor.toNat).unless (p.factor = 0) ++
    (Field.ofNat "spread" p.spread.toNat).unless (p.spread = 0)

theorem toJson_eq (p : Policy) : p.toJson = textOf p.fields := by
  unfold toJson fields Field.unless textOf
  split <;> split <;> rfl

theorem readsAs_toJson (p : Policy) : ReadsAs p.toJson (valueOf p.fields) := by
  have hfactor : p.factor.toNat < UInt64.size := Nat.lt_trans p.factor.toNat_lt (by decide)
  have hspread : p.spread.toNat < UInt64.size := Nat.lt_trans p.spread.toNat_lt (by decide)
  rw [toJson_eq]
  refine readsAs_writeObject ?_
  rw [fields, List.forall_mem_append]
  exact ⟨Field.readsAs_unless (readsAs_writeNat hfactor) _,
    Field.readsAs_unless (readsAs_writeNat hspread) _⟩

/-- The fields of a policy are found under their names, unless they are zero. -/
theorem record?_fields (p : Policy) : (valueOf p.fields).record? ["replicationFactor", "spread"] =
    some [if p.factor = 0 then none else some (.number (some p.factor.toNat)),
      if p.spread = 0 then none else some (.number (some p.spread.toNat))] := by
  unfold fields Field.unless
  split <;> split <;> rfl

/-- The fields of a policy make the policy again, zeros for those left out. -/
theorem ofJson?_fields (p : Policy) : ofJson? (valueOf p.fields) = some p := by
  have hfactor : p.factor.toNat ≤ 65535 := Nat.le_of_lt_succ p.factor.toNat_lt
  have hspread : p.spread.toNat ≤ 255 := Nat.le_of_lt_succ p.spread.toNat_lt
  obtain ⟨factor, spread⟩ := p
  unfold ofJson?
  rw [record?_fields]
  -- a field that is left out is read as zero
  by_cases hzero : factor = 0 <;> by_cases hzero' : spread = 0 <;>
    simp [natural?_number hfactor, natural?_number hspread, hzero, hzero']

end Policy

/-! ## Texts -/

/-- Each text that is written is the object of the listed fields, or the array of such objects, and
reading it gives back the address, the list of nodes and the change that it was written for, and the
policy with the defaults in the place of its zeros. -/
theorem parse?_toJson (a : Address) (nodes : List Node) (c : Change) (p : Policy)
    (fresh : Nat → String) :
    (parse? a.toJson = some (valueOf a.fields) ∧ (parse? a.toJson).bind Address.ofJson? = some a) ∧
      (parse? (Node.listToJson nodes) = some (.array (nodes.map fun n => valueOf n.fields)) ∧
        (parse? (Node.listToJson nodes)).bind (Node.listOfJson? fresh) = some nodes) ∧
      (parse? c.toJson = some (valueOf c.fields) ∧
        (parse? c.toJson).bind (Change.ofJson? fresh) = some c) ∧
      parse? p.toJson = some (valueOf p.fields) ∧ Policy.parse p.toJson = .ok p.withDefaults := by
  have haddress := parse?_of_readsAs a.readsAs_toJson
  have hnodes := parse?_of_readsAs (Node.readsAs_listToJson nodes)
  have hchange := parse?_of_readsAs c.readsAs_toJson
  have hpolicy := parse?_of_readsAs p.readsAs_toJson
  refine ⟨⟨haddress, ?_⟩, ⟨hnodes, ?_⟩, ⟨hchange, ?_⟩, hpolicy, ?_⟩
  · rw [haddress, Option.bind_some, Address.ofJson?_fields]
  · rw [hnodes, Option.bind_some, Node.listOfJson?_fields]
  · rw [hchange, Option.bind_some, Change.ofJson?_fields]
  · rw [Policy.parse, hpolicy, Option.bind_some, Policy.ofJson?_fields]

end RingRouting
