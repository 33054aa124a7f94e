import I4A.Core.Walk
import I4A.Mesh.Growth

/-! # Packets in a tree

A packet goes from node to node by the shared routing tables. When every link
has carried both its handshakes, an address of a home subnet is delivered from
everywhere. An address that a node's parent sends down and for which the node
has no board comes straight back, and no other address is ever in a loop.
-/

namespace I4A

open Relation StateTransition

namespace Mesh

variable {ι : Type*}

/-- `routing_table_route` on the table of node `i`. -/
def route (t : Mesh ι) (dst : BitVec 32) (i : ι) : UInt8 :=
  routingTableRoute (t.nodes i).table dst

/-- The node a packet goes to from node `i`: the one linked to the board that the table names,
or none if that is the center or has no link. -/
def hop (t : Mesh ι) (dst : BitVec 32) (i : ι) : Option ι :=
  match Orientation.ofOutput (t.route dst i) with
  | none => none
  | some .center => none
  | some o => (t.link (i, o)).map Prod.fst

/-- The address is in the subnet that the home board of node `d` got from `on_provision`. -/
def AtHome (t : Mesh ι) (dst : BitVec 32) (d : ι) : Prop :=
  t.role (d, .center) = .home ⟨true⟩ ∧
    ∃ N, t.network d = some N ∧ (getNodeSubnet N .center).Contains dst

/-- The walk from node `a` ends at the center of node `d` and nowhere else. -/
structure Delivers (t : Mesh ι) (dst : BitVec 32) (a d : ι) : Prop where
  reaches : Reaches (t.hop dst) a d
  center : t.route dst d = Orientation.center.output
  only : ∀ b, Reaches (t.hop dst) a b → t.hop dst b = none → b = d

/-- The parent of node `d` has the route to its network, the address is in it, and node `d`
has neither a home subnet nor the route to a child's network with the address. -/
structure Strays (t : Mesh ι) (dst : BitVec 32) (d : ι) : Prop where
  arrives : ∃ p N, d ∈ t.served p ∧ t.network d = some N ∧ routeTo N p.2 ∈ t.routes p.1 ∧
    N.Contains dst
  home : ¬ t.AtHome dst d
  child : ∀ o c N, c ∈ t.served (d, o) → t.network c = some N →
    routeTo N o ∈ t.routes d → ¬ N.Contains dst

end Mesh

/-! ## One hop -/

@[simp] theorem routeTo_covers (network : Network) (o : Orientation) (ip : BitVec 32) :
    (routeTo network o).covers ip = true ↔ network.Contains ip := by
  exact decide_eq_true_iff

namespace Mesh

variable {ι : Type*} {t : Mesh ι} {dst : BitVec 32} {i : ι}

theorem hop_center (h : t.route dst i = Orientation.center.output) : t.hop dst i = none := by
  simp [hop, h]

theorem hop_link {o : Orientation} {c : Port ι} (ho : o ≠ .center)
    (h : t.route dst i = o.output) (hlink : t.link (i, o) = some c) :
    t.hop dst i = some c.1 := by
  cases o with
  | center => exact absurd rfl ho
  | _ => simp [hop, h, hlink]

theorem route_default (hnone : ∀ e ∈ t.routes i, ¬ e.covers dst = true) :
    t.route dst i = t.gateway i := by
  have hfind : (t.nodes i).table.used.find? (·.covers dst) = none := by
    rw [List.find?_eq_none]
    exact hnone
  rw [route, routingTableRoute, hfind]
  rfl

namespace Tree

variable [DecidableEq ι] {root : ι} {network : Network} {p : Port ι} {c : ι} {N : Network}

/-- An entry that covers the address decides, since all entries have masks of one length. -/
theorem route_entry (h : Tree root network t) {o : Orientation}
    (hmem : routeTo N o ∈ t.routes i) (hdst : N.Contains dst) : t.route dst i = o.output := by
  refine (h.routes.sorted i).route_entry hmem ((routeTo_covers N o dst).mpr hdst) fun e he _ => ?_
  obtain ⟨M, o', hM, heq⟩ := h.entry_eq hmem
  obtain ⟨M', o'', hM', rfl⟩ := h.entry_eq he
  rw [hM] at hM'
  cases hM'
  rw [heq]
  exact BitVec.le_refl _

/-- Down: to the child whose network has the address. -/
theorem hop_down (h : Tree root network t) (hc : c ∈ t.served p)
    (hmem : routeTo N p.2 ∈ t.routes p.1) (hdst : N.Contains dst) :
    t.hop dst p.1 = some c := by
  obtain ⟨a, hlink⟩ := h.links.linked p c hc
  exact hop_link (h.prov.linkForwarder p _ hlink) (h.route_entry hmem hdst) hlink

/-- Up: to the parent. -/
theorem hop_up (h : Tree root network t) (hnone : ∀ e ∈ t.routes i, ¬ e.covers dst = true)
    (hroot : i ≠ root) (hi : t.network i ≠ none) :
    ∃ p, i ∈ t.served p ∧ t.hop dst i = some p.1 := by
  obtain ⟨a, p, hlink, hserved, hgateway⟩ := h.uplinks.up i hroot hi
  refine ⟨p, hserved, hop_link ?_ ((route_default hnone).trans hgateway) hlink⟩
  exact h.prov.linkForwarder (i, a) p hlink

/-- At the root, or outside the tree, the packet stays. -/
theorem hop_end (h : Tree root network t) (hnone : ∀ e ∈ t.routes i, ¬ e.covers dst = true)
    (hi : i = root ∨ t.network i = none) : t.hop dst i = none :=
  hop_center ((route_default hnone).trans (h.uplinks.ends i hi))

theorem route_home (h : Tree root network t) (hhome : t.AtHome dst i) :
    t.route dst i = Orientation.center.output := by
  obtain ⟨hrole, N, hN, hdst⟩ := hhome
  obtain ⟨M, hM, hmem⟩ := h.routes.home i hrole
  rw [hN] at hM
  cases hM
  exact h.route_entry hmem hdst

/-! ## Delivery -/

theorem route_child (h : Tree root network t) (settled : t.pending = [])
    (hc : c ∈ t.served p) (hN : t.network c = some N) : routeTo N p.2 ∈ t.routes p.1 := by
  obtain ⟨a, hlink⟩ := h.links.linked p c hc
  rcases h.routes.child p _ hlink hc with ⟨connection, hm⟩ | ⟨event, hm⟩ | ⟨M, hM, hmem⟩
  · rw [settled] at hm
    cases hm
  · rw [settled] at hm
    cases hm
  · rw [hN] at hM
    cases hM
    exact hmem

section Settled

variable (h : Tree root network t) (short : t.ShortPrefixes)
  (proper : ProperNetwork network.addr network.mask) (started : t.network root ≠ none)

/-- The tree as a delegation tree. -/
abbrev delegates : Delegation ι Orientation (BitVec 32) :=
  delegation h.prov h.one short proper started

theorem mem_block (h : Tree root network t) {e : RtRoutingEntry} (he : e ∈ t.routes i)
    (hdst : e.covers dst = true) : dst ∈ (h.delegates short proper started).block i := by
  obtain ⟨M, o, hM, rfl⟩ := h.entry_eq he
  exact (h.delegates short proper started).part_subset i o
    ⟨M, hM, (routeTo_covers _ o dst).mp hdst⟩

/-- The node with the home subnet is the owner of its addresses. -/
theorem owner_of_home (h : Tree root network t) {d : ι} (hhome : t.AtHome dst d) :
    (h.delegates short proper started).Owner dst d := by
  obtain ⟨-, N, hN, hdst⟩ := hhome
  have hmember : (h.delegates short proper started).member d := by
    change t.network d ≠ none
    simp [hN]
  refine Delegation.owner_of_part hmember ⟨N, hN, hdst⟩ (b := .center) fun c hc => ?_
  exact h.one.forwarder (d, .center) c hc.1 rfl

/-- The tables follow the tree to the node with the home subnet. -/
theorem follows (h : Tree root network t) (settled : t.pending = []) (d : ι) :
    (h.delegates short proper started).Follows dst d (t.hop dst) where
  down a o c _ hchild hdst := by
    obtain ⟨hserved, -, -⟩ := hchild
    obtain ⟨N, hN, hdst⟩ := hdst
    exact h.hop_down hserved (h.route_child settled hserved hN) hdst
  up a ha _ hroot hdst := by
    have hnone : ∀ e ∈ t.routes a, ¬ e.covers dst = true :=
      fun e he hcov => hdst (h.mem_block short proper started he hcov)
    obtain ⟨p, hserved, hhop⟩ := h.hop_up hnone hroot ha
    obtain ⟨N, hN⟩ := Option.ne_none_iff_exists'.mp ha
    obtain ⟨M, hM, rfl, hlt⟩ := h.subnet hserved hN
    refine ⟨p.1, p.2, ?_, ⟨hserved, hlt, M, hM, hN⟩, hhop⟩
    change t.network p.1 ≠ none
    simp [hM]

/-- From every node of the tree the walk ends at the node with the home subnet. -/
theorem delivers (h : Tree root network t) (short : t.ShortPrefixes)
    (proper : ProperNetwork network.addr network.mask) (settled : t.pending = []) {d : ι}
    (hhome : t.AtHome dst d) (hi : t.network i ≠ none) : t.Delivers dst i d := by
  have started : t.network root ≠ none := h.prov.rootStarted (p := (i, .center)) hi
  have hcenter := h.route_home hhome
  have hreaches : Reaches (t.hop dst) i d := by
    refine (h.owner_of_home short proper started hhome).reaches
      (h.follows short proper started settled d) ?_ hi
    rintro a o c ⟨-, -, M, -, hc⟩
    change t.network c ≠ none
    simp [hc]
  refine ⟨hreaches, hcenter, fun b hb hlast => ?_⟩
  have hend : d ∈ eval (t.hop dst) i := mem_eval.mpr ⟨hreaches, hop_center hcenter⟩
  exact Part.mem_unique (mem_eval.mpr ⟨hb, hlast⟩) hend

end Settled

/-! ## Loops -/

theorem covered_of_arrives (h : Tree root network t) {d : ι} (hstray : ¬ t.Strays dst d)
    (hd : d ∈ t.served p) (hN : t.network d = some N) (hmem : routeTo N p.2 ∈ t.routes p.1)
    (hdst : N.Contains dst) : ∃ e ∈ t.routes d, e.covers dst = true := by
  by_contra hnone
  refine hstray ⟨⟨p, N, hd, hN, hmem, hdst⟩, fun hhome => hnone ?_, fun o c M _ _ hroute hin => ?_⟩
  · obtain ⟨hrole, M, hM, hin⟩ := hhome
    obtain ⟨M', hM', hroute⟩ := h.routes.home d hrole
    rw [hM] at hM'
    cases hM'
    exact ⟨_, hroute, (routeTo_covers _ _ _).mpr hin⟩
  · exact hnone ⟨_, hroute, (routeTo_covers _ _ _).mpr hin⟩

theorem not_covered_of_strays (h : Tree root network t) {d : ι} (hstray : t.Strays dst d) :
    ∀ e ∈ t.routes d, ¬ e.covers dst = true := by
  intro e he hcov
  rcases h.routes.entries d e he with ⟨hrole, N, hN, rfl⟩ | ⟨o, c, N, hlink, hc, hN, rfl⟩
  · exact hstray.home ⟨hrole, N, hN, (routeTo_covers _ _ _).mp hcov⟩
  · exact hstray.child o c.1 N hc hN he ((routeTo_covers _ _ _).mp hcov)

/-- The parent of a node that strays sends the packet down, and it comes back. -/
theorem bounces (h : Tree root network t) {d : ι} (hstray : t.Strays dst d) :
    ∃ j, t.hop dst j = some d ∧ t.hop dst d = some j := by
  obtain ⟨p, N, hd, hN, hmem, hdst⟩ := hstray.arrives
  have hroot : d ≠ root := by
    rintro rfl
    exact h.links.notRoot p hd
  obtain ⟨p', hd', hup⟩ := h.hop_up (h.not_covered_of_strays hstray) hroot (by simp [hN])
  obtain rfl := h.links.server p' p d hd' hd
  exact ⟨p'.1, h.hop_down hd hmem hdst, hup⟩

/-- From a node with an entry for the address the walk goes down and ends. -/
theorem ends_of_covered (h : Tree root network t) (hstray : ∀ d, ¬ t.Strays dst d)
    (hcov : ∃ e ∈ t.routes i, e.covers dst = true) :
    ∃ b, Reaches (t.hop dst) i b ∧ t.hop dst b = none := by
  induction hr : t.clock - t.rank i using Nat.strong_induction_on generalizing i with
  | _ r ih =>
      obtain ⟨e, he, hcov⟩ := hcov
      rcases h.routes.entries i e he with ⟨hrole, N, hN, rfl⟩ | ⟨o, c, N, -, hc, hN, rfl⟩
      · have hhome : t.AtHome dst i := ⟨hrole, N, hN, (routeTo_covers _ _ _).mp hcov⟩
        exact ⟨i, .refl, hop_center (h.route_home hhome)⟩
      · have hdst := (routeTo_covers _ _ _).mp hcov
        have hdown := h.hop_down (p := (i, o)) hc he hdst
        obtain ⟨M, -, -, hlt⟩ := h.subnet hc hN
        change t.rank i < t.rank c.1 at hlt
        have hclock := h.prov.clock c.1 (by simp [hN])
        obtain ⟨b, hb, hlast⟩ := ih (t.clock - t.rank c.1) (by omega)
          (h.covered_of_arrives (hstray c.1) hc hN he hdst) rfl
        exact ⟨b, .head hdown hb, hlast⟩

/-- From any other node it goes up first. -/
theorem ends (h : Tree root network t) (hstray : ∀ d, ¬ t.Strays dst d) (i : ι) :
    ∃ b, Reaches (t.hop dst) i b ∧ t.hop dst b = none := by
  induction hr : t.rank i using Nat.strong_induction_on generalizing i with
  | _ r ih =>
      by_cases hcov : ∃ e ∈ t.routes i, e.covers dst = true
      · exact h.ends_of_covered hstray hcov
      · have hnone : ∀ e ∈ t.routes i, ¬ e.covers dst = true := by simpa using hcov
        by_cases hend : i = root ∨ t.network i = none
        · exact ⟨i, .refl, h.hop_end hnone hend⟩
        · obtain ⟨hroot, hi⟩ := not_or.mp hend
          obtain ⟨p, hserved, hup⟩ := h.hop_up hnone hroot hi
          obtain ⟨N, hN⟩ := Option.ne_none_iff_exists'.mp hi
          obtain ⟨M, -, -, hlt⟩ := h.subnet hserved hN
          obtain ⟨b, hb, hlast⟩ := ih (t.rank p.1) (by omega) p.1 rfl
          exact ⟨b, .head hup hb, hlast⟩

/-- In a finished tree exactly the addresses stray that some node other than the root's has in
its network and no node has in its home subnet. -/
theorem strays_iff (h : Tree root network t) (short : t.ShortPrefixes)
    (proper : ProperNetwork network.addr network.mask) (settled : t.pending = []) :
    (∃ d, t.Strays dst d) ↔
      (∃ d N, d ≠ root ∧ t.network d = some N ∧ N.Contains dst) ∧ ∀ d, ¬ t.AtHome dst d := by
  constructor
  · rintro ⟨d, hstray⟩
    obtain ⟨p, N, hd, hN, -, hdst⟩ := hstray.arrives
    have hroot : d ≠ root := by
      rintro rfl
      exact h.links.notRoot p hd
    refine ⟨⟨d, N, hroot, hN, hdst⟩, fun d' hhome => ?_⟩
    -- the walk would end at the home subnet, but it bounces
    obtain ⟨j, hdown, hup⟩ := h.bounces hstray
    have hdelivers := h.delivers short proper settled hhome (i := d) (by simp [hN])
    have hnever := neverRevisits_of_ends hdelivers.reaches (hop_center hdelivers.center)
    exact not_neverRevisits_of_bounce .refl hup hdown hnever
  · rintro ⟨⟨a, N, hroot, hN, hdst⟩, hhome⟩
    have started : t.network root ≠ none := h.prov.rootStarted (p := (a, .center)) (by simp [hN])
    obtain ⟨d, owner⟩ := Delegation.exists_owner (D := h.delegates short proper started)
      (fun c hc => h.prov.clock c hc) dst
    have ha : t.network a ≠ none := by simp [hN]
    have habove := owner.above a ha ⟨N, hN, hdst⟩
    have hd : d ≠ root := by
      rintro rfl
      have hback := Delegation.rank_le (Delegation.root_above
        (D := h.delegates short proper started) ha)
      exact hroot (Delegation.eq_of_above_of_rank_le habove hback)
    obtain ⟨M, hM, hin⟩ := owner.mem.resolve_right hd
    obtain ⟨j, o, offer, -⟩ := h.prov.parent d M hd hM
    refine ⟨d, ⟨(j, o), M, offer.served, hM, h.route_child settled offer.served hM, hin⟩,
      hhome d, fun o' c L hc hL _ hin' => ?_⟩
    -- a child with the address would be above the owner
    obtain ⟨-, -, -, hlt⟩ := h.subnet hc hL
    have hle := Delegation.rank_le (owner.above c (by change t.network c ≠ none; simp [hL])
      ⟨L, hL, hin'⟩)
    exact absurd hlt (Nat.not_lt_of_le hle)

end Tree

end Mesh

/-! ## Runs -/

/-- In a tree that grew without losses, every node having its network before its boards send
a handshake, and all prefixes leaving room for the boards: once all events of the links are
handled, an address of a home subnet is delivered from every node. -/
theorem mesh_delivers {ι : Type*} [DecidableEq ι] {root : ι} {network : Network} {t : Mesh ι}
    (proper : ProperNetwork network.addr network.mask)
    (run : (meshMachine ι).Executes (fun t l => t.grows root l = true)
      (Mesh.start root network) t)
    (short : t.ShortPrefixes) (settled : t.pending = []) {dst : BitVec 32} {d a : ι}
    (home : t.AtHome dst d) (ha : t.network a ≠ none) : t.Delivers dst a d :=
  (Mesh.Tree.run proper run short).delivers short proper settled home ha

/-- At any time, walks towards an address meet no node twice exactly if no node strays. -/
theorem mesh_neverRevisits_iff {ι : Type*} [DecidableEq ι] {root : ι} {network : Network}
    {t : Mesh ι} (proper : ProperNetwork network.addr network.mask)
    (run : (meshMachine ι).Executes (fun t l => t.grows root l = true)
      (Mesh.start root network) t)
    (short : t.ShortPrefixes) (dst : BitVec 32) :
    (∀ a, NeverRevisits (t.hop dst) a) ↔ ∀ d, ¬ t.Strays dst d := by
  have tree := Mesh.Tree.run proper run short
  constructor
  · intro never d hstray
    obtain ⟨j, hdown, hup⟩ := tree.bounces hstray
    exact not_neverRevisits_of_bounce .refl hdown hup (never j)
  · intro hstray a
    obtain ⟨b, hb, hlast⟩ := tree.ends hstray a
    exact neverRevisits_of_ends hb hlast

/-- Node 0 is the root's and provisions node 1; both handshakes and the provision of node 1's
center are handled. -/
def growPair : List (MeshLabel (Fin 2)) :=
  [.sibl (0, .center), .sibl (0, .north), .sibl (0, .north),
    .connect (0, .north) (1, .south) Network.zero,
    .peer (0, .north) (.connected Network.zero), .sibl (1, .south),
    .peer (1, .south) (.handshake ⟨rootNetwork, ⟨0x0a200000, 0xffe00000⟩, 1⟩),
    .peer (1, .south) (.connected Network.zero),
    .peer (0, .north)
      (.handshake ⟨⟨0x0a200000, 0xffe00000⟩, ⟨0x0a280000, 0xfffc0000⟩, 1⟩),
    .sibl (1, .center), .sibl (1, .center)]

theorem growPair_runs :
    ((meshMachine (Fin 2)).runWith (Mesh.grows 0) (Mesh.start 0 rootNetwork)
      growPair).isSome = true := by decide

/-- The two nodes, with no event of a link left. -/
def grownPair : Mesh (Fin 2) :=
  ((meshMachine (Fin 2)).runWith (Mesh.grows 0) (Mesh.start 0 rootNetwork)
    growPair).get growPair_runs

theorem grownPair_run : (meshMachine (Fin 2)).Executes (fun t l => t.grows 0 l = true)
    (Mesh.start 0 rootNetwork) grownPair :=
  Machine.executes_of_runWith (Option.some_get growPair_runs).symm

theorem grownPair_short : grownPair.ShortPrefixes := by
  have hall : ∀ i,
      (grownPair.network i).all (fun network => maskSize network.mask ≤ 28) = true := by
    decide
  intro i network hi
  have hsome := hall i
  rw [hi] at hsome
  simpa using hsome

/-- An address of node 1's home subnet 10.52.0.0/14, from the root. -/
theorem mesh_delivers_pair : grownPair.Delivers 0x0a340001 0 1 :=
  mesh_delivers rootNetwork_proper grownPair_run grownPair_short (by decide)
    ⟨by decide, ⟨0x0a200000, 0xffe00000⟩, by decide, by decide⟩ (by decide)

/-- An address of block 0 of node 1's network, which no board has, goes round between the two. -/
theorem mesh_packetLoop :
    ¬ ∀ t : Mesh (Fin 2),
      (meshMachine (Fin 2)).Executes (fun t l => t.grows 0 l = true) (Mesh.start 0 rootNetwork) t →
      ∀ dst a, NeverRevisits (t.hop dst) a := by
  intro h
  have there : grownPair.hop 0x0a200001 0 = some 1 := by decide
  have back : grownPair.hop 0x0a200001 1 = some 0 := by decide
  exact not_neverRevisits_of_bounce .refl there back (h grownPair grownPair_run 0x0a200001 0)

/-- In a finished tree an address of a home subnet strays nowhere. -/
theorem mesh_neverRevisits_pair :
    (∀ d, ¬ grownPair.Strays 0x0a340001 d) ∧
      ∀ a, NeverRevisits (grownPair.hop 0x0a340001) a := by
  have tree := Mesh.Tree.run rootNetwork_proper grownPair_run grownPair_short
  have home : grownPair.AtHome 0x0a340001 1 :=
    ⟨by decide, ⟨0x0a200000, 0xffe00000⟩, by decide, by decide⟩
  have nowhere : ∀ d, ¬ grownPair.Strays 0x0a340001 d := by
    intro d hstray
    obtain ⟨-, hnone⟩ :=
      (tree.strays_iff grownPair_short rootNetwork_proper (by decide)).mp ⟨d, hstray⟩
    exact hnone 1 home
  exact ⟨nowhere, (mesh_neverRevisits_iff rootNetwork_proper grownPair_run grownPair_short
    0x0a340001).mpr nowhere⟩

end I4A
