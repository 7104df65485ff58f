import RingRouting.CommandLine.Task
import RingRouting.Proofs.Channel.Calls
import RingRouting.Proofs.Registry.Registration
import RingRouting.Proofs.Resolver.Start

/-!
# Where the command line routes keys

The nodes of a file pass through a registry, a resolver and a balancer before a key is routed over
them. None of this is to be seen in the result: it is what the file and the arguments say by
themselves. A key goes to one of its first owners among the identities of the nodes that the service
has. Main statement: `route_eq_usable`.
-/

namespace RingRouting.CommandLine

/-- The nodes that a service has, of those that a file lists. -/
def usable (nodes : List Node) (service : String) (tags : List String) : List Node :=
  (survivors nodes).filter fun n => n.service = service ∧ n.protocol = .grpc ∧
  ∀ tag ∈ tags, tag ∈ n.tags

/-- The line says that a key goes to a node of the list. The node is one of the first owners of the
key on a ring of identities, and the primary one where keys are not spread. -/
def RoutedOver (ids : Ring String) (spread : Nat) (nodes : List Node) (key line : String) : Prop :=
  ∃ n ∈ nodes, line = "\t".intercalate [key, s!"{n.host}:{n.port}", n.id] ∧
    (∃ owners, ids.findN key.toUTF8 (min spread nodes.length) = .ok owners ∧
      owners.length = min spread nodes.length ∧ n.id ∈ owners) ∧
    (spread = 1 → ids.find key.toUTF8 = .ok n.id)

variable {nodes : List Node} {service : String} {tags : List String}

/-! ## The nodes of a service -/

/-- The usable nodes are the last ones of their ids that the selection wants. -/
theorem usable_eq :
    usable nodes service tags = (survivors nodes).filter
      (Selection.mk service .grpc tags).wants := by
  refine List.filter_congr fun n _ => Bool.eq_iff_iff.mpr ?_
  simp [Selection.wants, Node.hasTags, and_assoc]

/-- No id is usable twice. -/
theorem nodup_map_id_usable : ((usable nodes service tags).map (·.id)).Nodup :=
  (nodup_map_id_survivors nodes).sublist (List.filter_sublist.map _)

theorem mem_of_mem_usable {n : Node} (h : n ∈ usable nodes service tags) : n ∈ nodes :=
  mem_of_mem_survivors (List.mem_filter.mp h).1

/-- The channel of a client takes in the addresses of the nodes of the service, and nothing else. -/
theorem exists_connect_eq (nodes : List Node) (service : String) (tags : List String)
    (policy : Policy) :
    ∃ addresses : List Address, addresses.Perm ((usable nodes service tags).map Node.address) ∧
      connect nodes service tags policy =
        .ok ((Channel.new .sip policy.withDefaults).accept addresses).2 := by
  have hscheme : (Target.ofService service).scheme = Target.ownScheme := rfl
  let answer : Consumer := fun _ _ => .accepted
  have hanswer (as : List Address) : answer [] as ≠ .crashed := nofun
  have hinterval : Resolver.defaultInterval ≠ 0 := by decide
  obtain ⟨resolver, hstart, hupdates⟩ :=
    Resolver.exists_start_eq hscheme .grpc tags hinterval hanswer (Registry.keyed_registered nodes)
  rw [usable_eq]
  refine ⟨_, (Registry.perm_select_registered nodes _).map Node.address, ?_⟩
  rw [connect, ← Registry.registered, hstart]
  dsimp only
  rw [hupdates]
  rfl

/-! ## Rings of identities -/

section Identities

variable {fresh : Ring Address} {ids : Ring String} {key : ByteArray}

/-- The owners of a key are the same on a ring of addresses and on a ring of what identifies
them. -/
theorem findN_eq_ok_map (halike : Ring.Alike Address.ringKey id fresh ids) (hfresh : fresh.Sound)
    (hids : ids.Sound) (hsize : fresh.size ≠ 0) {n : Nat} {as : List Address}
    (h : fresh.findN key n = .ok as) : ids.findN key n = .ok (as.map Address.ringKey) := by
  rw [Ring.findN_eq_ok_ownersOf key n hsize] at h
  have howners := halike.map_ownersOf_eq hfresh hids key n
  rw [List.map_id, Except.ok.inj h] at howners
  rw [Ring.findN_eq_ok_ownersOf key n (halike.size_eq hfresh hids ▸ hsize), howners]

/-- Alike rings find the same member, under either name for it. -/
theorem find_eq_ok_ringKey (halike : Ring.Alike Address.ringKey id fresh ids) (hfresh : fresh.Sound)
    (hids : ids.Sound) {a : Address} (h : fresh.find key = .ok a) :
    ids.find key = .ok a.ringKey := by
  rw [hfresh.find_eq_ok_iff_ownersOf] at h
  have howners := halike.map_ownersOf_eq hfresh hids key 1
  rw [List.map_id, h] at howners
  exact hids.find_eq_ok_iff_ownersOf.mpr howners

end Identities

/-! ## The channel of a client -/

/-- A node with an id has it as its place on the ring. -/
theorem ringKey_address {n : Node} (hid : n.id ≠ "") : n.address.ringKey = n.id :=
  if_neg hid

/-- The addresses are those of the nodes, in any order, and each node has an identity of its own. -/
structure Identified (W : List Node) (addresses : List Address) : Prop where
  nodup : (W.map (·.id)).Nodup
  id_ne : ∀ n ∈ W, n.id ≠ ""
  perm : addresses.Perm (W.map Node.address)

section Client

variable {W : List Node} {addresses : List Address}

/-- Each address is that of a node, and its ring key the id. -/
theorem Identified.exists_node (h : Identified W addresses) {a : Address} (ha : a ∈ addresses) :
    ∃ n ∈ W, n.address = a ∧ a.ringKey = n.id := by
  obtain ⟨n, hn, rfl⟩ := List.mem_map.mp (h.perm.mem_iff.mp ha)
  exact ⟨n, hn, rfl, ringKey_address (h.id_ne n hn)⟩

/-- Addresses that come from nodes differ in their ring keys. -/
theorem Identified.eq_of_ringKey_eq (h : Identified W addresses) :
    ∀ a ∈ addresses, ∀ a' ∈ addresses, a.ringKey = a'.ringKey → a = a' := by
  intro a ha a' ha' hkey
  obtain ⟨n, hn, rfl, hid⟩ := h.exists_node ha
  obtain ⟨n', hn', rfl, hid'⟩ := h.exists_node ha'
  rw [hid, hid'] at hkey
  rw [List.inj_on_of_nodup_map h.nodup hn hn' hkey]

/-- There are addresses exactly if there are nodes. -/
theorem Identified.eq_nil_iff (h : Identified W addresses) : addresses = [] ↔ W = [] := by
  rw [← List.length_eq_zero_iff, h.perm.length_eq, List.length_map, List.length_eq_zero_iff]

/-- There are as many addresses as nodes. -/
theorem Identified.length_dedup (h : Identified W addresses) :
    addresses.dedup.length = W.length := by
  have haddresses : (addresses.map Address.ringKey).Nodup := by
    have hkeys : (W.map Node.address).map Address.ringKey = W.map (·.id) := by
      rw [List.map_map]
      exact List.map_congr_left fun n hn => ringKey_address (h.id_ne n hn)
    rw [(h.perm.map _).nodup_iff, hkeys]
    exact h.nodup
  rw [(List.Nodup.of_map _ haddresses).dedup, h.perm.length_eq, List.length_map]

/-- A ring of the addresses has its like in a ring of the identities. -/
theorem Identified.exists_ids (h : Identified W addresses) {fresh : Ring Address}
    (hget : ∀ key a, fresh.get? key = some a ↔ a ∈ addresses ∧ a.ringKey = key) :
    ∃ ids : Ring String, Ring.ofMembers fresh.partitioner fresh.factor (W.map (·.id)) = .ok ids ∧
      ids.Sound ∧ Ring.Alike Address.ringKey id fresh ids := by
  have hmembers : ((W.map (·.id)).map (Member.key : String → String)).Nodup := by
    rw [show (Member.key : String → String) = id from rfl, List.map_id]
    exact h.nodup
  obtain ⟨ids, hok, hsound, hp, hfactor, hids⟩ :=
    Ring.exists_ofMembers fresh.partitioner fresh.factor_ne_zero hmembers
  refine ⟨ids, hok, hsound, hp, hfactor, fun key => Option.ext fun s => ?_⟩
  rw [Option.map_id, id_eq, hids, Option.map_eq_some_iff]
  constructor
  · rintro ⟨hs, rfl⟩
    obtain ⟨n, hn, rfl⟩ := List.mem_map.mp hs
    have ha : n.address ∈ addresses := h.perm.mem_iff.mpr (List.mem_map_of_mem hn)
    have hkey := ringKey_address (h.id_ne n hn)
    exact ⟨n.address, (hget _ _).mpr ⟨ha, hkey⟩, hkey⟩
  · rintro ⟨a, ha, rfl⟩
    obtain ⟨ha, hkey⟩ := (hget key a).mp ha
    obtain ⟨n, hn, -, hid⟩ := h.exists_node ha
    exact ⟨hid ▸ List.mem_map_of_mem hn, hkey⟩

/-- Where a channel goes by a ring of the addresses, its lines go by the ring of the identities. -/
theorem Identified.routedOver (h : Identified W addresses) (hne : W ≠ []) {ch : Channel}
    (hserves : ch.Serves addresses) {fresh : Ring Address} {ids : Ring String}
    (hfresh : fresh.Sound)
    (hids : ids.Sound) (halike : Ring.Alike Address.ringKey id fresh ids) (hsize : fresh.size ≠ 0)
    {spread : Nat} (hroutes : ch.RoutesOver fresh (min spread W.length)) {key : String}
    (hkey : key ≠ "") (chance : Chance) : ∃ c, (ch.pick key.toUTF8 chance).1 = .ok c ∧
      RoutedOver ids spread W key (routeLine key c.address) := by
  have hbytes : ¬key.toUTF8.isEmpty := fun hempty =>
    hkey (String.utf8ByteSize_eq_zero_iff.mp (by simpa [ByteArray.isEmpty] using hempty))
  obtain ⟨as, c, hfindN, hlength, hpick, hlive, hc, hfind⟩ := hroutes key.toUTF8 hbytes chance
  obtain ⟨n, hn, hnc, hid⟩ := h.exists_node (hserves.mem_of_live c.id c hlive).2
  refine ⟨c, hpick, n, hn, by rw [← hnc]; rfl, ⟨as.map Address.ringKey, ?_, ?_, ?_⟩, fun hone => ?_⟩
  · exact findN_eq_ok_map halike hfresh hids hsize hfindN
  · rw [List.length_map, hlength]
  · exact hid ▸ List.mem_map_of_mem hc
  · -- there is a node, so with a spread of one there is one owner
    have hnodes : W.length ≠ 0 := List.length_eq_zero_iff.not.mpr hne
    have hfound := find_eq_ok_ringKey halike hfresh hids (hfind (by omega))
    rw [hfound, hid]

/-- A new channel that is given the addresses of nodes settles, as ready if there are any. -/
theorem Identified.settled?_accept (h : Identified W addresses) (policy : Policy) :
    ((Channel.new .sip policy.withDefaults).accept addresses).2.settled? =
      some (if W = [] then .transientFailure else .ready) := by
  have hserves := (rested_new .sip policy.withDefaults).serves h.eq_of_ringKey_eq
  rw [Channel.settled?, hserves.state_eq]
  simp only [h.eq_nil_iff]
  split <;> rfl

/-- Keys are routed as their owners on a new ring of the identities say. -/
theorem Identified.exists_ids_pick (h : Identified W addresses) (hne : W ≠ []) (policy : Policy) :
    ∃ ids, Ring.ofMembers .sip policy.withDefaults.factor (W.map (·.id)) = .ok ids ∧
      ∀ key : String, key ≠ "" → ∀ chance, ∃ c,
        (((Channel.new .sip policy.withDefaults).accept addresses).2.pick key.toUTF8 chance).1 =
          .ok c ∧
          RoutedOver ids policy.withDefaults.spread.toNat W key (routeLine key c.address) := by
  have hkeys := h.eq_of_ringKey_eq
  have hrested := rested_new .sip policy.withDefaults
  obtain ⟨fresh, hok, hroutes⟩ := hrested.routesOver hkeys (h.eq_nil_iff.not.mpr hne)
  obtain ⟨fresh', hok', hfresh, hp, hfactor, hsize, hget⟩ :=
    exists_fresh .sip policy.withDefaults hkeys
  obtain rfl := Except.ok.inj (hok.symm.trans hok')
  obtain ⟨ids, hids, hsound, halike⟩ := h.exists_ids hget
  -- the defaults are filled in already
  have hspread : max policy.withDefaults.spread.toNat 1 = policy.withDefaults.spread.toNat := by
    rw [toNat_spread_withDefaults]
    omega
  rw [hp, hfactor, Policy.withDefaults, if_neg (Balancer.factor_withDefaults_ne_zero policy)]
    at hids
  rw [hspread, h.length_dedup] at hroutes
  rw [h.length_dedup] at hsize
  have hmembers : fresh.size ≠ 0 := hsize ▸ List.length_eq_zero_iff.not.mpr hne
  exact ⟨ids, hids, fun key hkey chance =>
    h.routedOver hne (hrested.serves hkeys) hfresh hsound halike hmembers hroutes hkey chance⟩

end Client

/-! ## The command -/

/-- A task that succeeds at each item of a list, whatever its position, succeeds at the list. -/
theorem exists_mapM_zipIdx {α β ε : Type} {f : α × Nat → Except ε β} {R : α → β → Prop} {l : List α}
    (h : ∀ a ∈ l, ∀ i, ∃ b, f (a, i) = .ok b ∧ R a b) (start : Nat) :
    ∃ bs, (l.zipIdx start).mapM f = .ok bs ∧ List.Forall₂ R l bs := by
  induction l generalizing start with
  | nil => exact ⟨[], rfl, .nil⟩
  | cons a rest ih =>
    obtain ⟨b, hb, hR⟩ := h a (List.mem_cons_self ..) start
    obtain ⟨bs, hbs, hrest⟩ := ih (fun a' ha' => h a' (List.mem_cons_of_mem _ ha')) (start + 1)
    refine ⟨b :: bs, ?_, .cons hR hrest⟩
    rw [List.zipIdx_cons, List.mapM_cons, hb, hbs]
    rfl

/-- The line for the key at a position. -/
def lineAt (s : Surroundings) (ch : Channel) (key : String × Nat) : Except TaskError String :=
  match (ch.pick key.1.toUTF8 (s.chance key.2)).1 with
  | .ok c => .ok (routeLine key.1 c.address)
  | .error e => .error (.unrouted key.1 e)

/-- `route` once its file is loaded and its channel connected: what is left is the channel's state
and its picks. -/
theorem route_eq {s : Surroundings} {path service : String} {tags keys : List String}
    {policy : Policy} {nodes : List Node} {ch : Channel} (hload : loadNodes s path = .ok nodes)
    (hconnect : connect nodes service tags policy = .ok ch) :
    route s path service tags keys policy = match ch.settled? with
      | none => .error .timedOut
      | some .ready => keys.zipIdx.mapM (lineAt s ch)
      | some _ => .error (.noUsableNodes service) := by
  simp only [route, hload, bind, Except.bind, hconnect]
  rcases ch.settled? with - | state
  · rfl
  · cases state <;> rfl

/-- What the command says about the nodes of a file and some keys. Without nodes of the service it
fails; otherwise each key has its line. -/
theorem route_eq_usable (s : Surroundings) (path service : String) (tags keys : List String)
    (policy : Policy)
    (nodes : List Node) (hload : loadNodes s path = .ok nodes) (hids : ∀ n ∈ nodes, n.id ≠ "")
    (hkeys : ∀ key ∈ keys, key ≠ "") :
    let W := usable nodes service tags
    (W = [] → route s path service tags keys policy = .error (.noUsableNodes service)) ∧
      (W ≠ [] → ∃ ids lines, Ring.ofMembers .sip policy.withDefaults.factor (W.map (·.id)) =
        .ok ids ∧
        route s path service tags keys policy = .ok lines ∧
        List.Forall₂ (RoutedOver ids policy.withDefaults.spread.toNat W) keys lines) := by
  intro W
  obtain ⟨addresses, hperm, hconnect⟩ := exists_connect_eq nodes service tags policy
  have h : Identified W addresses :=
    ⟨nodup_map_id_usable, fun n hn => hids n (mem_of_mem_usable hn), hperm⟩
  rw [route_eq hload hconnect, h.settled?_accept policy]
  refine ⟨fun hnil => ?_, fun hne => ?_⟩
  · rw [if_pos hnil]
  · rw [if_neg hne]
    obtain ⟨ids, hok, hpick⟩ := h.exists_ids_pick hne policy
    generalize ((Channel.new .sip policy.withDefaults).accept addresses).2 = ch at hpick
    have hline (key : String) (hkey : key ∈ keys) (i : Nat) :
        ∃ line, lineAt s ch (key, i) = .ok line ∧
        RoutedOver ids policy.withDefaults.spread.toNat W key line := by
      obtain ⟨c, hc, hrouted⟩ := hpick key (hkeys key hkey) (s.chance i)
      exact ⟨_, by rw [lineAt, hc], hrouted⟩
    obtain ⟨lines, hlines, hrouted⟩ := exists_mapM_zipIdx hline 0
    exact ⟨ids, lines, hok, hlines, hrouted⟩

/-- A node is listed twice, and belongs to another service the second time. All keys go to the node
that is left, also where they may be spread over two. -/
theorem route_moved_eq :
    let text :=
      "[\x7b\"id\":\"m\",\"name\":\"orders\",\"host\":\"h\",\"port\":1,\"type\":\"grpc\"\x7d," ++
      "\x7b\"id\":\"n\",\"name\":\"orders\",\"host\":\"h\",\"port\":2,\"type\":\"grpc\"\x7d," ++
      "\x7b\"id\":\"m\",\"name\":\"stock\",\"host\":\"h\",\"port\":1,\"type\":\"grpc\"\x7d]"
    let s : Surroundings := ⟨fun _ => some text, fun _ => "fresh", fun i => ⟨.empty, i⟩⟩
    route s "nodes.json" "orders" [] ["k", "l"] ⟨0, 2⟩ = .ok ["k\th:2\tn", "l\th:2\tn"] := by
  intro text s
  let node (id service : String) (port : UInt16) : Node :=
    { id, service, host := "h", port, protocol := .grpc }
  let nodes := [node "m" "orders" 1, node "n" "orders" 2, node "m" "stock" 1]
  have hload : loadNodes s "nodes.json" = .ok nodes := by decide +kernel
  obtain ⟨-, hroute⟩ :=
    route_eq_usable s "nodes.json" "orders" [] ["k", "l"] ⟨0, 2⟩ nodes hload (by decide) (by decide)
  rw [show usable nodes "orders" [] = [node "n" "orders" 2] by decide] at hroute
  obtain ⟨ids, lines, -, hok, hlines⟩ := hroute nofun
  have hline (key line : String) (h : RoutedOver ids 2 [node "n" "orders" 2] key line) :
      line = "\t".intercalate [key, "h:2", "n"] := by
    obtain ⟨n, hn, rfl, -⟩ := h
    have hendpoint : (node "n" "orders" 2).endpoint = "h:2" := by decide +kernel
    rw [List.mem_singleton.mp hn, ← hendpoint]
    rfl
  obtain ⟨k, rest, hk, hrest, rfl⟩ := List.forall₂_cons_left_iff.mp hlines
  obtain ⟨l, tail, hl, htail, rfl⟩ := List.forall₂_cons_left_iff.mp hrest
  obtain rfl := List.forall₂_nil_left_iff.mp htail
  rw [hok, hline "k" k hk, hline "l" l hl]
  rfl

end RingRouting.CommandLine
