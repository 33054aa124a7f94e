import I4A.Mesh.Addresses

/-! # Trees grown by handshakes

Runs without losses in which an access point is linked to a node that has no
network and no link yet, and in which a board sends no handshake before its node
has a network. The links then lead down from the root. An entry of a routing
table is the home subnet of the node or the network of a node behind the board
it names, and the default gateway of a node is the board it was provisioned
through.
-/

namespace I4A

open Forwarder

/-- The entry that `add_global_route` writes for the network behind board `o`. -/
def routeTo (network : Network) (o : Orientation) : RtRoutingEntry :=
  ⟨network.addr, network.mask, o.output⟩

namespace Mesh

variable {ι : Type*}

/-- The used entries of a node's routing table. -/
def routes (t : Mesh ι) (i : ι) : List RtRoutingEntry := (t.nodes i).table.used

variable [DecidableEq ι]

/-- The board's node is not the root's and has neither a network nor a link. -/
def joins (root : ι) (t : Mesh ι) (c : Port ι) : Bool :=
  c.1 ≠ root && (t.network c.1).isNone && Orientation.all.all fun o => (t.link (c.1, o)).isNone

/-- Links bring in one node at a time, nothing is lost, and a board opens a connection only
after its node got a network. -/
def grows (root : ι) (t : Mesh ι) : MeshLabel ι → Bool
  | .connect p q _ => t.ap p && p.2 ≠ .center && q.2 ≠ .center && t.joins root q
  | .disconnect _ _ => false
  | .lose _ _ => false
  | .peer p (.connected _) => !(t.role p).fresh
  | _ => true

/-- Links lead from an access point to the one node that it serves. -/
structure Downlinks (root : ι) (t : Mesh ι) : Prop where
  linked : ∀ p i, i ∈ t.served p → ∃ a, t.link p = some (i, a)
  server : ∀ p p' i, i ∈ t.served p → i ∈ t.served p' → p = p'
  down : ∀ p q, t.link p = some q → q.1 ∈ t.served p ∨ p.1 ∈ t.served q
  notRoot : ∀ p, root ∉ t.served p

/-- A forwarder that is not fresh has its node's network; only starts and provisions are
stored, so the root is never asked for a gateway. -/
structure Boards (t : Mesh ι) : Prop where
  holds : ∀ p state, t.role p = .forwarder state → state.globalState ≠ .withoutNetwork →
    ∃ N, t.network p.1 = some N ∧ state.Holds N p.2
  calm : ∀ i state, t.role (i, .center) = .root state → state.gatewayRequested = false
  stored : ∀ p, ∀ ev ∈ t.inbox p, ev = .onStart ∨ ∃ event, ev = .provision event

/-- The handshake that provisions `c`, or the connection for which `p` will send it. -/
def isNews (p c : Port ι) (m : Port ι × RtPeerEvent) : Bool :=
  match m.2 with
  | .connected _ => m.1 = p
  | .handshake _ => m.1 = c
  | _ => false

/-- On each link one handshake goes down, before the node has its network, and only
handshakes with that network go up. -/
structure Mail (t : Mesh ι) : Prop where
  linked : ∀ q ev, (q, ev) ∈ t.pending → ∃ p, t.link q = some p
  kind : ∀ q ev, (q, ev) ∈ t.pending →
    (∃ connection, ev = .connected connection) ∨ ∃ event, ev = .handshake event
  once : ∀ p c, t.link p = some c → c.1 ∈ t.served p → t.pending.countP (isNews p c) ≤ 1
  read : ∀ p c, t.link p = some c → c.1 ∈ t.served p → t.network c.1 ≠ none →
    t.pending.countP (isNews p c) = 0
  external : ∀ p c event, t.link p = some c → c.1 ∈ t.served p →
    (p, .handshake event) ∈ t.pending → t.network c.1 = some event.externalNetwork

/-- The entries of the routing tables. -/
structure Routes (t : Mesh ι) : Prop where
  sorted : ∀ i, (t.nodes i).table.Sorted
  entries : ∀ i, ∀ e ∈ t.routes i,
    (t.role (i, .center) = .home ⟨true⟩ ∧
      ∃ N, t.network i = some N ∧ e = routeTo (getNodeSubnet N .center) .center) ∨
    ∃ o c N, t.link (i, o) = some c ∧ c.1 ∈ t.served (i, o) ∧ t.network c.1 = some N ∧
      e = routeTo N o
  home : ∀ i, t.role (i, .center) = .home ⟨true⟩ →
    ∃ N, t.network i = some N ∧ routeTo (getNodeSubnet N .center) .center ∈ t.routes i
  child : ∀ p c, t.link p = some c → c.1 ∈ t.served p →
    (∃ connection, (c, .connected connection) ∈ t.pending) ∨
      (∃ event, (p, .handshake event) ∈ t.pending) ∨
      ∃ N, t.network c.1 = some N ∧ routeTo N p.2 ∈ t.routes p.1

/-- The default gateways. -/
structure Uplinks (root : ι) (t : Mesh ι) : Prop where
  up : ∀ i, i ≠ root → t.network i ≠ none →
    ∃ a p, t.link (i, a) = some p ∧ i ∈ t.served p ∧ t.gateway i = a.output
  ends : ∀ i, i = root ∨ t.network i = none → t.gateway i = Orientation.center.output

structure Tree (root : ι) (network : Network) (t : Mesh ι) : Prop where
  prov : Provisioned root network t
  one : OneServed t
  links : Downlinks root t
  boards : Boards t
  mail : Mail t
  routes : Routes t
  uplinks : Uplinks root t

variable {root : ι} {network : Network} {t u : Mesh ι} {p q : Port ι}

/-! ## The start -/

theorem start_table (root : ι) (network : Network) (i : ι) :
    ((Mesh.start root network).nodes i).table = routingTableInit Orientation.center.output := by
  by_cases hi : i = root
  · rw [hi, start_nodes_root]
    rfl
  · rw [start_nodes_of_ne network hi]
    rfl

theorem Boards.start (root : ι) (network : Network) : Boards (Mesh.start root network) where
  holds p state hstate hnot := by
    rw [start_forwarder root network ((start_kinds root network).ne_center hstate)] at hstate
    cases hstate
    exact absurd rfl hnot
  calm i state hstate := by
    rw [start_role] at hstate
    split at hstate <;> cases hstate
    rfl
  stored p ev hev := by
    rw [start_inbox, List.mem_singleton] at hev
    exact .inl hev

theorem Routes.start (root : ι) (network : Network) : Routes (Mesh.start root network) where
  sorted i := by
    rw [start_table]
    exact .init _
  entries i e he := by
    rw [Mesh.routes, start_table] at he
    cases he
  home i hrole := by
    rw [start_role] at hrole
    split at hrole <;> cases hrole
  child p c hlink := by cases hlink

theorem Tree.start (root : ι) (network : Network) :
    Tree root network (Mesh.start root network) where
  prov := .start root network
  one := .start root network
  links := ⟨fun _ _ hi => (nomatch hi), fun _ _ _ hi => (nomatch hi), fun _ _ hl => (nomatch hl),
    fun _ hi => (nomatch hi)⟩
  boards := .start root network
  mail := ⟨fun _ _ hm => (nomatch hm), fun _ _ hm => (nomatch hm), fun _ _ hl => (nomatch hl),
    fun _ _ hl => (nomatch hl), fun _ _ _ hl => (nomatch hl)⟩
  routes := .start root network
  uplinks := by
    refine ⟨fun i _ hi => absurd rfl hi, fun i _ => ?_⟩
    rw [Mesh.gateway, start_table]
    rfl

/-! ## The networks of a tree -/

namespace Tree

theorem subnet (h : Tree root network t) {i : ι} {N : Network} (hi : i ∈ t.served p)
    (hN : t.network i = some N) :
    ∃ M, t.network p.1 = some M ∧ N = getNodeSubnet M p.2 ∧ t.rank p.1 < t.rank i := by
  have hroot : i ≠ root := by
    rintro rfl
    exact h.links.notRoot p hi
  obtain ⟨j, o, offer, hlt⟩ := h.prov.parent i N hroot hN
  obtain ⟨M, hM, hsubnet⟩ := offer.subnet
  obtain rfl := h.links.server p (j, o) i hi offer.served
  exact ⟨M, hM, hsubnet, hlt⟩

theorem entry_eq (h : Tree root network t) {i : ι} {e : RtRoutingEntry} (he : e ∈ t.routes i) :
    ∃ N o, t.network i = some N ∧ e = routeTo (getNodeSubnet N o) o := by
  rcases h.routes.entries i e he with ⟨-, N, hN, rfl⟩ | ⟨o, c, N, -, hserved, hN, rfl⟩
  · exact ⟨N, .center, hN, rfl⟩
  · obtain ⟨M, hM, rfl, -⟩ := h.subnet hserved hN
    exact ⟨M, o, hM, rfl⟩

/-- A table holds at most one entry a board. -/
theorem count_le (h : Tree root network t) (i : ι) :
    (t.nodes i).table.count ≤ Orientation.nDevices := by
  have hsorted := h.routes.sorted i
  rw [← RtRoutingTable.used_length hsorted.count_le]
  by_cases hempty : t.routes i = []
  · change (t.routes i).length ≤ _
    rw [hempty]
    exact Nat.zero_le _
  · obtain ⟨e, he⟩ := List.exists_mem_of_ne_nil _ hempty
    obtain ⟨N, -, hN, -⟩ := h.entry_eq he
    have hsub : t.routes i ⊆ Orientation.all.map fun o => routeTo (getNodeSubnet N o) o := by
      intro e' he'
      obtain ⟨M, o, hM, rfl⟩ := h.entry_eq he'
      rw [hN] at hM
      cases hM
      exact List.mem_map.mpr ⟨o, Orientation.mem_all o, rfl⟩
    exact (hsorted.distinct.of_map.subperm hsub).length_le

/-- A route to the subnet of one of the node's boards is added, and nothing else happens to
the entries. -/
theorem add_route (h : Tree root network t) (short : t.ShortPrefixes)
    (proper : ProperNetwork network.addr network.mask) {i : ι} {N : Network}
    (hN : t.network i = some N) (o : Orientation) {table : RtRoutingTable}
    (hadd : table = routingTableAdd (t.nodes i).table (getNodeSubnet N o).addr
      (getNodeSubnet N o).mask o.output) :
    (∀ e ∈ t.routes i, e ∈ table.used) ∧ routeTo (getNodeSubnet N o) o ∈ table.used ∧
      ∀ e ∈ table.used, e ∈ t.routes i ∨ e = routeTo (getNodeSubnet N o) o := by
  have hsorted := h.routes.sorted i
  have hdef : ¬ ((getNodeSubnet N o).addr = 0 ∧ (getNodeSubnet N o).mask = 0) :=
    mt Network.eq_zero_iff.mpr (getNodeSubnet_ne_zero N o)
  have hroom : (t.nodes i).table.count < maxRoutingEntries := by
    have := h.count_le i
    simp only [Orientation.nDevices] at this
    simp only [maxRoutingEntries]
    omega
  have hnew := hsorted.mem_add hdef (.inl hroom) o.output
  subst hadd
  refine ⟨fun e he => ?_, hnew, fun e he => hsorted.mem_of_add hdef he⟩
  obtain ⟨M, o', hM, rfl⟩ := h.entry_eq he
  rw [hN] at hM
  cases hM
  by_cases ho : o' = o
  · subst ho
    exact hnew
  · -- subnets of two boards are different keys
    refine hsorted.mem_add_of_mem hdef he fun hkey => ho ?_
    obtain ⟨k, q, hplan⟩ := h.prov.plan short proper hN
    obtain ⟨ip, hip⟩ := hplan.exists_mem_subnet o'
    refine hplan.eq_of_subnets hip ?_
    simp only [RtRoutingEntry.key, routeTo, Prod.mk.injEq] at hkey
    rw [Network.Contains, ← hkey.1, ← hkey.2]
    exact hip

end Tree

/-! ## A link comes up -/

section Connect

variable {connection : Network}

theorem grows_connect (hg : t.grows root (.connect p q connection) = true) :
    t.ap p = true ∧ p.2 ≠ .center ∧ q.2 ≠ .center ∧ q.1 ≠ root ∧ t.network q.1 = none ∧
      ∀ o, t.link (q.1, o) = none := by
  simp only [grows, joins, Bool.and_eq_true, decide_eq_true_eq, List.all_eq_true,
    Option.isNone_iff_eq_none] at hg
  obtain ⟨⟨⟨hap, hp⟩, hq⟩, ⟨hroot, hnone⟩, hall⟩ := hg
  exact ⟨hap, hp, hq, hroot, hnone, fun o => hall o (Orientation.mem_all o)⟩

theorem grows_linksAp {l : MeshLabel ι} (hg : t.grows root l = true) : t.linksAp l = true := by
  cases l with
  | connect p q connection =>
      obtain ⟨hap, hp, hq, -⟩ := grows_connect hg
      simp [linksAp, hap, hp, hq]
  | _ => rfl

namespace Tree

theorem joining (h : Tree root network t) (hq : q.2 ≠ .center) (hnone : t.network q.1 = none) :
    t.ap q = false ∧ (t.role q).fresh = true := by
  refine ⟨?_, ?_⟩
  · by_contra hap
    exact h.prov.ap_network hq (by simpa using hap) hnone
  · obtain ⟨state, hstate⟩ := h.prov.kinds.forwarder q.1 q.2 hq
    change t.role q = _ at hstate
    rw [hstate, RtRole.fresh_forwarder]
    by_contra hnot
    obtain ⟨N, hN, -⟩ := h.boards.holds q state hstate hnot
    rw [hnone] at hN
    cases hN

theorem served_nil (h : Tree root network t) (hp : t.link p = none) : t.served p = [] := by
  rw [List.eq_nil_iff_forall_not_mem]
  intro i hi
  obtain ⟨a, ha⟩ := h.links.linked p i hi
  rw [hp] at ha
  cases ha

theorem servesOne (h : Tree root network t) {l : MeshLabel ι} (hg : t.grows root l = true)
    (hs : (meshMachine ι).step t l = some u) : t.servesOne l = true := by
  cases l with
  | connect p q connection =>
      obtain ⟨-, -, hq, -, hnone, -⟩ := grows_connect hg
      obtain ⟨-, hp, -, -⟩ := step_connect hs
      obtain ⟨hap, -⟩ := h.joining hq hnone
      simp [Mesh.servesOne, h.served_nil hp, hap]
  | _ => rfl

theorem connect_served (h : Tree root network t) (hp : t.link p = none)
    (hg : t.grows root (.connect p q connection) = true) :
    (t.connect p q connection).served = Function.update t.served p [q.1] := by
  obtain ⟨hap, -, hq, -, hnone, -⟩ := grows_connect hg
  obtain ⟨hapq, hfresh⟩ := h.joining hq hnone
  have hfirst : t.serve p q = Function.update t.served p [q.1] := by
    rw [serve, if_pos ⟨hap, hfresh⟩, h.served_nil hp]
    rfl
  change ({ t with served := t.serve p q }).serve q p = _
  rw [serve, if_neg (by simp [hapq]), hfirst]

theorem connect_links (h : Tree root network t) (hpq : p ≠ q) (hp : t.link p = none)
    (hq : t.link q = none) (hg : t.grows root (.connect p q connection) = true) :
    Downlinks root (t.connect p q connection) := by
  obtain ⟨-, -, -, hroot, -, hunlinked⟩ := grows_connect hg
  have hserved := h.connect_served hp hg
  -- nobody serves the joining node yet
  have hnew : ∀ x, q.1 ∉ t.served x := by
    intro x hx
    obtain ⟨a, ha⟩ := h.links.linked x q.1 hx
    have hback := h.prov.linkSymm x _ ha
    rw [hunlinked a] at hback
    cases hback
  have hcases : ∀ {x i}, i ∈ (t.connect p q connection).served x →
      (x = p ∧ i = q.1) ∨ (x ≠ p ∧ i ∈ t.served x) := by
    intro x i hi
    rw [hserved] at hi
    by_cases hx : x = p
    · subst hx
      rw [Function.update_self, List.mem_singleton] at hi
      exact .inl ⟨rfl, hi⟩
    · rw [Function.update_of_ne hx] at hi
      exact .inr ⟨hx, hi⟩
  constructor
  case linked =>
    intro x i hi
    rcases hcases hi with ⟨rfl, rfl⟩ | ⟨hx, hold⟩
    · exact ⟨q.2, (connect_link hpq).mpr (.inl ⟨rfl, rfl⟩)⟩
    · obtain ⟨a, ha⟩ := h.links.linked x i hold
      refine ⟨a, (connect_link hpq).mpr (.inr (.inr ⟨hx, ?_, ha⟩))⟩
      rintro rfl
      rw [hq] at ha
      cases ha
  case server =>
    intro x y i hi hj
    rcases hcases hi with ⟨rfl, rfl⟩ | ⟨-, hx⟩ <;> rcases hcases hj with ⟨rfl, hi'⟩ | ⟨-, hy⟩
    · rfl
    · exact absurd hy (hnew y)
    · subst hi'
      exact absurd hx (hnew x)
    · exact h.links.server x y i hx hy
  case down =>
    intro x y hxy
    have hpserved : q.1 ∈ (t.connect p q connection).served p := by
      rw [hserved, Function.update_self]
      exact List.mem_singleton_self _
    rcases (connect_link hpq).mp hxy with ⟨rfl, rfl⟩ | ⟨rfl, rfl⟩ | ⟨hx, -, hold⟩
    · exact .inl hpserved
    · exact .inr hpserved
    · have hy : y ≠ p := by
        rintro rfl
        rw [h.prov.linkSymm x y hold] at hp
        cases hp
      rw [hserved, Function.update_of_ne hx, Function.update_of_ne hy]
      exact h.links.down x y hold
  case notRoot =>
    intro x hx
    rcases hcases hx with ⟨-, hi⟩ | ⟨-, hold⟩
    · exact hroot hi.symm
    · exact h.links.notRoot x hold

theorem connect_mail (h : Tree root network t) (hpq : p ≠ q) (hp : t.link p = none)
    (hq : t.link q = none) (hg : t.grows root (.connect p q connection) = true) :
    Mail (t.connect p q connection) := by
  obtain ⟨-, -, -, -, hnone, -⟩ := grows_connect hg
  have hserved := h.connect_served hp hg
  have hidle : ∀ x, t.link x = none → ∀ ev, (x, ev) ∉ t.pending := by
    intro x hx ev hin
    obtain ⟨y, hy⟩ := h.mail.linked x ev hin
    rw [hx] at hy
    cases hy
  have hmem : ∀ {x ev}, (x, ev) ∈ (t.connect p q connection).pending →
      (x, ev) ∈ t.pending ∨ ((x = p ∨ x = q) ∧ ev = .connected connection) := by
    intro x ev hin
    simp only [Mesh.connect, List.mem_append, List.mem_cons, Prod.mk.injEq, List.not_mem_nil,
      or_false] at hin
    rcases hin with hold | ⟨rfl, rfl⟩ | ⟨rfl, rfl⟩
    · exact .inl hold
    · exact .inr ⟨.inl rfl, rfl⟩
    · exact .inr ⟨.inr rfl, rfl⟩
  -- the two connections are news on the new link only
  have hcount : ∀ x c, (t.connect p q connection).pending.countP (isNews x c) =
      t.pending.countP (isNews x c) + (if p = x then 1 else 0) + (if q = x then 1 else 0) := by
    intro x c
    simp only [Mesh.connect, List.countP_append, List.countP_cons, List.countP_nil, isNews,
      decide_eq_true_eq]
    omega
  have hdown : ∀ {x c}, (t.connect p q connection).link x = some c →
      c.1 ∈ (t.connect p q connection).served x →
      (x = p ∧ c = q) ∨ (p ≠ x ∧ q ≠ x ∧ t.link x = some c ∧ c.1 ∈ t.served x) := by
    intro x c hlink hc
    rw [hserved] at hc
    rcases (connect_link hpq).mp hlink with ⟨rfl, rfl⟩ | ⟨rfl, rfl⟩ | ⟨hx, hx', hold⟩
    · exact .inl ⟨rfl, rfl⟩
    · rw [Function.update_of_ne hpq.symm, h.served_nil hq] at hc
      cases hc
    · rw [Function.update_of_ne hx] at hc
      exact .inr ⟨hx.symm, hx'.symm, hold, hc⟩
  constructor
  case linked =>
    intro x ev hin
    rcases hmem hin with hold | ⟨rfl | rfl, -⟩
    · obtain ⟨y, hy⟩ := h.mail.linked x ev hold
      refine ⟨y, (connect_link hpq).mpr (.inr (.inr ⟨?_, ?_, hy⟩))⟩
      · rintro rfl
        exact hidle x hp ev hold
      · rintro rfl
        exact hidle x hq ev hold
    · exact ⟨q, (connect_link hpq).mpr (.inl ⟨rfl, rfl⟩)⟩
    · exact ⟨p, (connect_link hpq).mpr (.inr (.inl ⟨rfl, rfl⟩))⟩
  case kind =>
    intro x ev hin
    rcases hmem hin with hold | ⟨-, rfl⟩
    · exact h.mail.kind x ev hold
    · exact .inl ⟨connection, rfl⟩
  case once =>
    intro x c hlink hc
    rcases hdown hlink hc with ⟨rfl, rfl⟩ | ⟨hx, hx', hold, hc'⟩
    · have hzero : t.pending.countP (isNews x c) = 0 := by
        rw [List.countP_eq_zero]
        intro m hm hnews
        obtain ⟨y, ev⟩ := m
        cases ev <;> simp only [isNews, decide_eq_true_eq, Bool.false_eq_true] at hnews
        · exact hidle y (hnews ▸ hq) _ hm
        · exact hidle y (hnews ▸ hp) _ hm
      rw [hcount, hzero, if_pos rfl, if_neg hpq.symm]
    · rw [hcount, if_neg hx, if_neg hx']
      exact h.mail.once x c hold hc'
  case read =>
    intro x c hlink hc hsome
    rcases hdown hlink hc with ⟨rfl, rfl⟩ | ⟨hx, hx', hold, hc'⟩
    · exact absurd hnone hsome
    · rw [hcount, if_neg hx, if_neg hx']
      exact h.mail.read x c hold hc' hsome
  case external =>
    intro x c event hlink hc hin
    rcases hmem hin with hpend | ⟨-, hev⟩
    · rcases hdown hlink hc with ⟨rfl, rfl⟩ | ⟨-, -, hold, hc'⟩
      · exact absurd hpend (hidle x hp _)
      · exact h.mail.external x c event hold hc' hpend
    · cases hev

theorem connect (h : Tree root network t) (hg : t.grows root (.connect p q connection) = true)
    (hs : (meshMachine ι).step t (.connect p q connection) = some u) : Tree root network u := by
  have prov := h.prov.step (grows_linksAp hg) hs
  have one := h.one.step (grows_linksAp hg) (h.servesOne hg hs) hs
  obtain ⟨hpq, hp, hq, rfl⟩ := step_connect hs
  have hserved := h.connect_served hp hg
  have hkept : ∀ x y, t.link x = some y → (t.connect p q connection).link x = some y := by
    intro x y hxy
    refine (connect_link hpq).mpr (.inr (.inr ⟨?_, ?_, hxy⟩))
    · rintro rfl
      rw [hp] at hxy
      cases hxy
    · rintro rfl
      rw [hq] at hxy
      cases hxy
  have hstays : ∀ x i, i ∈ t.served x → i ∈ (t.connect p q connection).served x := by
    intro x i hi
    have hx : x ≠ p := by
      rintro rfl
      rw [h.served_nil hp] at hi
      cases hi
    rw [hserved, Function.update_of_ne hx]
    exact hi
  refine ⟨prov, one, h.connect_links hpq hp hq hg, ⟨h.boards.holds, h.boards.calm,
    h.boards.stored⟩, h.connect_mail hpq hp hq hg, ⟨h.routes.sorted, ?_, h.routes.home, ?_⟩,
    ?_, h.uplinks.ends⟩
  · intro i e he
    rcases h.routes.entries i e he with hhome | ⟨o, c, N, hlink, hc, hN, rfl⟩
    · exact .inl hhome
    · exact .inr ⟨o, c, N, hkept _ _ hlink, hstays _ _ hc, hN, rfl⟩
  · intro x c hlink hc
    have hin : ∀ m ∈ t.pending, m ∈ (t.connect p q connection).pending :=
      fun m hm => List.mem_append_left _ hm
    rcases (connect_link hpq).mp hlink with ⟨rfl, rfl⟩ | ⟨rfl, rfl⟩ | ⟨hx, -, hold⟩
    · exact .inl ⟨connection, by simp [Mesh.connect]⟩
    · rw [hserved, Function.update_of_ne hpq.symm, h.served_nil hq] at hc
      cases hc
    · rw [hserved, Function.update_of_ne hx] at hc
      rcases h.routes.child x c hold hc with ⟨other, hm⟩ | ⟨event, hm⟩ | hroute
      · exact .inl ⟨other, hin _ hm⟩
      · exact .inr (.inl ⟨event, hin _ hm⟩)
      · exact .inr (.inr hroute)
  · intro i hi hN
    obtain ⟨a, x, hlink, hx, hgateway⟩ := h.uplinks.up i hi hN
    exact ⟨a, x, hkept _ _ hlink, hstays _ _ hx, hgateway⟩

end Tree

end Connect

end Mesh

end I4A
