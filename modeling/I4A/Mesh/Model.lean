import I4A.Node.Provision
import Mathlib

/-! # A network of nodes

Nodes whose forwarders are linked pairwise. A link comes up on two unlinked
boards and goes down on both, with a peer event on either side. What a board
sends goes to the board it is linked to at that moment; a peer event may be
handled at any later time, in any order, and a message may be lost.
-/

namespace I4A

instance neZero_three : NeZero 3 := ⟨by decide⟩

/-- `ROOT_NETWORK` and `ROOT_MASK` of `main.c`: 10.0.0.0/8. -/
def rootNetwork : Network := ⟨0x0A000000, 0xFF000000⟩

/-- A board of the network. -/
abbrev Port (ι : Type*) := ι × Orientation

structure Mesh (ι : Type*) where
  nodes : ι → Node
  link : Port ι → Option (Port ι)
  /-- The board was told `wl_enable_ap_mode`. -/
  ap : Port ι → Bool
  /-- Peer events that have not been handled. -/
  pending : List (Port ι × RtPeerEvent)
  /-- History: the network the node was provisioned with. -/
  network : ι → Option Network
  /-- History: when it was provisioned, counted in provisioned nodes. -/
  rank : ι → Nat
  clock : Nat
  /-- History: the nodes that an access point was linked to while their board was without
  network, less those that at a later such link had not got its subnet and were not about to. -/
  served : Port ι → List ι

inductive MeshLabel (ι : Type*) where
  | connect (p q : Port ι) (connection : Network)
  | disconnect (p : Port ι) (connection : Network)
  /-- A board handles its first stored sibling event. -/
  | sibl (p : Port ι)
  /-- A board, with no sibling event stored, handles a peer event. -/
  | peer (p : Port ι) (ev : RtPeerEvent)
  /-- A message is lost. -/
  | lose (p : Port ι) (ev : RtPeerEvent)
  /-- `rt_on_tick` on the center board. -/
  | tick (i : ι) (dtMs : BitVec 32)

/-- The network with which a handshake provisions the board. -/
def RtRole.provisionedBy (role : RtRole) : RtPeerEvent → Option Network
  | .handshake event => if role.fresh then some event.providedNetwork else none
  | _ => none

/-- The network with which the root's start provisions its node. -/
def RtRole.startsWith : RtRole → RtSiblEvent → Option Network
  | .root state, .onStart => some state.network
  | _, _ => none

/-- A peer event that came over the link, not from the board's own wireless driver. -/
def RtPeerEvent.isMessage : RtPeerEvent → Bool
  | .connected _ => false
  | .lost _ => false
  | _ => true

/-- A handshake that provides the network. -/
def RtPeerEvent.provides (network : Network) : RtPeerEvent → Bool
  | .handshake event => event.providedNetwork = network
  | _ => false

namespace Mesh

variable {ι : Type*} [DecidableEq ι]

/-- All boards after `rt_on_start`, the root's node with its network. -/
def start (root : ι) (network : Network) : Mesh ι where
  nodes i := if i = root then Node.start (Node.rootRoles network) else Node.start Node.homeRoles
  link := fun _ => none
  ap := fun _ => false
  pending := []
  network := fun _ => none
  rank := fun _ => 0
  clock := 0
  served := fun _ => []

variable (t : Mesh ι)

/-- The role of a board. -/
def role (p : Port ι) : RtRole := (t.nodes p.1).roles p.2

/-- The stored sibling events of a board. -/
def inbox (p : Port ι) : List RtSiblEvent := (t.nodes p.1).inbox p.2

def gateway (i : ι) : UInt8 := (t.nodes i).table.defaultGateway

/-- Messages on their way to the board that `p` is linked to. -/
def send (p : Port ι) (messages : List RtPeerEvent) : List (Port ι × RtPeerEvent) :=
  match t.link p with
  | some q => messages.map (q, ·)
  | none => []

/-- The node of board `p` becomes `node`, after calls of `p`. -/
def act (p : Port ι) (node : Node) (actions : List RtAction) : Mesh ι :=
  { t with
    nodes := Function.update t.nodes p.1 node
    ap := if apEnabled actions then Function.update t.ap p true else t.ap
    pending := t.pending ++ t.send p (peerMessages actions) }

/-- The history after node `i` was provisioned, if it was. -/
def record (i : ι) : Option Network → Mesh ι
  | some network =>
      { t with
        network := Function.update t.network i (some network)
        rank := Function.update t.rank i t.clock
        clock := t.clock + 1 }
  | none => t

/-- An event is taken out of those not handled. -/
def take (p : Port ι) (ev : RtPeerEvent) : Mesh ι :=
  { t with pending := t.pending.erase (p, ev) }

/-- Node `i` has the subnet of board `p`, or a handshake that provides it is on its way. -/
def holds (p : Port ι) (i : ι) : Bool :=
  match t.role p with
  | .forwarder state =>
      t.network i = some state.deviceNetwork ||
        t.pending.any fun m => m.1.1 = i && m.2.provides state.deviceNetwork
  | _ => false

/-- The access point `p` serves the node of `q`, if that is a fresh board. -/
def serve (p q : Port ι) : Port ι → List ι :=
  if t.ap p ∧ (t.role q).fresh then
    Function.update t.served p (q.1 :: (t.served p).filter (t.holds p))
  else t.served

def connect (p q : Port ι) (connection : Network) : Mesh ι :=
  let served := { t with served := t.serve p q }
  { t with
    link := Function.update (Function.update t.link p (some q)) q (some p)
    pending := t.pending ++ [(p, .connected connection), (q, .connected connection)]
    served := served.serve q p }

def disconnect (p q : Port ι) (connection : Network) : Mesh ι :=
  { t with
    link := Function.update (Function.update t.link p none) q none
    pending := t.pending ++ [(p, .lost connection), (q, .lost connection)] }

def step (t : Mesh ι) : MeshLabel ι → Option (Mesh ι)
  | .connect p q connection =>
      if p ≠ q ∧ t.link p = none ∧ t.link q = none then some (t.connect p q connection) else none
  | .disconnect p connection => (t.link p).map fun q => t.disconnect p q connection
  | .sibl p =>
      match t.inbox p with
      | [] => none
      | ev :: rest => (dispatchSibl p.2 (t.role p) ev).map fun result =>
          (t.record p.1 ((t.role p).startsWith ev)).act p
            (((t.nodes p.1).pop p.2 rest).act p.2 result) result.2
  | .peer p ev =>
      if (p, ev) ∈ t.pending ∧ t.inbox p = [] then
        (dispatchPeer p.2 (t.role p) ev).map fun result =>
          ((t.take p ev).record p.1 ((t.role p).provisionedBy ev)).act p
            ((t.nodes p.1).act p.2 result) result.2
      else none
  | .lose p ev =>
      if (p, ev) ∈ t.pending ∧ ev.isMessage then some (t.take p ev) else none
  | .tick i dtMs =>
      let result := rtOnTick (t.role (i, .center)) dtMs
      some (t.act (i, .center) ((t.nodes i).act .center result) result.2)

end Mesh

def meshMachine (ι : Type*) [DecidableEq ι] : Machine (Mesh ι) (MeshLabel ι) := ⟨Mesh.step⟩

namespace Mesh

variable {ι : Type*} [DecidableEq ι] {t u : Mesh ι}

/-! ## Reading a step -/

theorem start_nodes_root (root : ι) (network : Network) :
    (start root network).nodes root = Node.start (Node.rootRoles network) := if_pos rfl

theorem start_nodes_of_ne {root i : ι} (network : Network) (h : i ≠ root) :
    (start root network).nodes i = Node.start Node.homeRoles := if_neg h

theorem step_connect {p q : Port ι} {connection : Network}
    (h : t.step (.connect p q connection) = some u) :
    p ≠ q ∧ t.link p = none ∧ t.link q = none ∧ u = t.connect p q connection := by
  simp only [step] at h
  split at h
  · next hc => exact ⟨hc.1, hc.2.1, hc.2.2, (Option.some.inj h).symm⟩
  · cases h

theorem step_disconnect {p : Port ι} {connection : Network}
    (h : t.step (.disconnect p connection) = some u) :
    ∃ q, t.link p = some q ∧ u = t.disconnect p q connection := by
  simp only [step, Option.map_eq_some_iff] at h
  obtain ⟨q, hq, hu⟩ := h
  exact ⟨q, hq, hu.symm⟩

theorem step_sibl {p : Port ι} (h : t.step (.sibl p) = some u) :
    ∃ ev rest result, t.inbox p = ev :: rest ∧ dispatchSibl p.2 (t.role p) ev = some result ∧
      u = (t.record p.1 ((t.role p).startsWith ev)).act p
        (((t.nodes p.1).pop p.2 rest).act p.2 result) result.2 := by
  simp only [step] at h
  cases hin : t.inbox p with
  | nil =>
      rw [hin] at h
      cases h
  | cons ev rest =>
      rw [hin] at h
      obtain ⟨result, hd, hu⟩ := Option.map_eq_some_iff.mp h
      exact ⟨ev, rest, result, rfl, hd, hu.symm⟩

theorem step_peer {p : Port ι} {ev : RtPeerEvent} (h : t.step (.peer p ev) = some u) :
    (p, ev) ∈ t.pending ∧ t.inbox p = [] ∧
      ∃ result, dispatchPeer p.2 (t.role p) ev = some result ∧
        u = ((t.take p ev).record p.1 ((t.role p).provisionedBy ev)).act p
          ((t.nodes p.1).act p.2 result) result.2 := by
  simp only [step] at h
  split at h
  · next hc =>
    obtain ⟨result, hd, hu⟩ := Option.map_eq_some_iff.mp h
    exact ⟨hc.1, hc.2, result, hd, hu.symm⟩
  · cases h

theorem step_lose {p : Port ι} {ev : RtPeerEvent} (h : t.step (.lose p ev) = some u) :
    (p, ev) ∈ t.pending ∧ ev.isMessage = true ∧ u = t.take p ev := by
  simp only [step] at h
  split at h
  · next hc => exact ⟨hc.1, hc.2, (Option.some.inj h).symm⟩
  · cases h

/-! ## Frame of the operations -/

@[simp] theorem record_nodes (t : Mesh ι) (i : ι) (network : Option Network) :
    (t.record i network).nodes = t.nodes := by cases network <;> rfl

@[simp] theorem record_link (t : Mesh ι) (i : ι) (network : Option Network) :
    (t.record i network).link = t.link := by cases network <;> rfl

@[simp] theorem record_ap (t : Mesh ι) (i : ι) (network : Option Network) :
    (t.record i network).ap = t.ap := by cases network <;> rfl

@[simp] theorem record_pending (t : Mesh ι) (i : ι) (network : Option Network) :
    (t.record i network).pending = t.pending := by cases network <;> rfl

@[simp] theorem record_served (t : Mesh ι) (i : ι) (network : Option Network) :
    (t.record i network).served = t.served := by cases network <;> rfl

theorem act_role_self (t : Mesh ι) (p : Port ι) (n : Node) (result : RtRole × List RtAction) :
    (t.act p (n.act p.2 result) result.2).role p = result.1 := by
  simp [role, act]

theorem act_role_of_node_ne (t : Mesh ι) {p q : Port ι} (h : q.1 ≠ p.1) (node : Node)
    (actions : List RtAction) : (t.act p node actions).role q = t.role q := by
  simp [role, act, h]

theorem act_role_of_ne (t : Mesh ι) {p q : Port ι} (h : q ≠ p) {n : Node}
    (hn : n.roles = (t.nodes p.1).roles) (result : RtRole × List RtAction)
    (actions : List RtAction) : (t.act p (n.act p.2 result) actions).role q = t.role q := by
  obtain ⟨i, o⟩ := q
  obtain ⟨j, o'⟩ := p
  by_cases hij : i = j
  · subst hij
    have ho : o ≠ o' := fun ho => h (by rw [ho])
    simp [role, act, Node.act_roles_of_ne _ ho, hn]
  · exact act_role_of_node_ne t hij _ actions

theorem act_inbox_of_node_ne (t : Mesh ι) {p q : Port ι} (h : q.1 ≠ p.1) (node : Node)
    (actions : List RtAction) : (t.act p node actions).inbox q = t.inbox q := by
  simp [inbox, act, h]

theorem act_inbox_self (t : Mesh ι) (p : Port ι) (n : Node) (result : RtRole × List RtAction)
    (actions : List RtAction) : (t.act p (n.act p.2 result) actions).inbox p = n.inbox p.2 := by
  simp [inbox, act]

theorem act_inbox_sibling (t : Mesh ι) {p q : Port ι} (hnode : q.1 = p.1) (h : q ≠ p) {n : Node}
    (hn : ∀ o, o ≠ p.2 → n.inbox o = (t.nodes p.1).inbox o) (result : RtRole × List RtAction)
    (actions : List RtAction) :
    (t.act p (n.act p.2 result) actions).inbox q = t.inbox q ++ siblEvents result.2 := by
  obtain ⟨i, o⟩ := q
  obtain ⟨j, o'⟩ := p
  change i = j at hnode
  subst hnode
  have ho : o ≠ o' := fun ho => h (by rw [ho])
  simp [inbox, act, Node.act_inbox_of_ne _ ho, hn o ho]

omit [DecidableEq ι] in
theorem mem_send {p q : Port ι} {messages : List RtPeerEvent} {ev : RtPeerEvent} :
    (q, ev) ∈ t.send p messages ↔ t.link p = some q ∧ ev ∈ messages := by
  unfold send
  cases h : t.link p with
  | none => simp
  | some q' =>
      simp only [List.mem_map, Prod.mk.injEq, Option.some.injEq]
      constructor
      · rintro ⟨ev', hev, rfl, rfl⟩
        exact ⟨rfl, hev⟩
      · rintro ⟨rfl, hev⟩
        exact ⟨ev, hev, rfl, rfl⟩

/-! ## One node of the network -/

/-- A step of the network is a step of one node, a tick of its center board, or none of its
business. -/
theorem step_nodes {l : MeshLabel ι} (h : t.step l = some u) (i : ι) :
    u.nodes i = t.nodes i ∨
      (∃ o, l = .sibl (i, o) ∧ (t.nodes i).step (.sibl o) = some (u.nodes i)) ∨
      (∃ o ev, l = .peer (i, o) ev ∧ (t.nodes i).step (.peer o ev) = some (u.nodes i)) ∨
      ∃ dtMs, l = .tick i dtMs ∧
        u.nodes i = (t.nodes i).act .center (rtOnTick (t.role (i, .center)) dtMs) := by
  cases l with
  | connect p q connection =>
      obtain ⟨-, -, -, rfl⟩ := step_connect h
      exact .inl rfl
  | disconnect p connection =>
      obtain ⟨q, -, rfl⟩ := step_disconnect h
      exact .inl rfl
  | sibl p =>
      obtain ⟨j, o⟩ := p
      obtain ⟨ev, rest, result, hin, hd, rfl⟩ := step_sibl h
      by_cases hij : i = j
      · subst hij
        refine .inr (.inl ⟨o, rfl, ?_⟩)
        change (t.nodes i).inbox o = ev :: rest at hin
        change dispatchSibl o ((t.nodes i).roles o) ev = some result at hd
        simp [Node.step, Node.siblResult, hin, hd, act]
      · exact .inl (Function.update_of_ne hij _ _ |>.trans (by rw [record_nodes]))
  | peer p ev =>
      obtain ⟨j, o⟩ := p
      obtain ⟨-, hin, result, hd, rfl⟩ := step_peer h
      by_cases hij : i = j
      · subst hij
        refine .inr (.inr (.inl ⟨o, ev, rfl, ?_⟩))
        change (t.nodes i).inbox o = [] at hin
        change dispatchPeer o ((t.nodes i).roles o) ev = some result at hd
        simp [Node.step, Node.peerResult, hin, hd, act]
      · exact .inl (Function.update_of_ne hij _ _ |>.trans (by rw [record_nodes]; rfl))
  | lose p ev =>
      obtain ⟨-, -, rfl⟩ := step_lose h
      exact .inl rfl
  | tick j dtMs =>
      cases h
      by_cases hij : i = j
      · subst hij
        exact .inr (.inr (.inr ⟨dtMs, rfl, Function.update_self _ _ _⟩))
      · exact .inl (Function.update_of_ne hij _ _)

end Mesh

end I4A
