import I4A.Mesh.Model

/-! # Who provisioned whom

Runs whose links join an access point to another forwarder; messages may be
lost, links too, and every event of the election protocol may occur. A node is
then provisioned once, by the root's start or by an access point that was
linked to it while its board was fresh, and its network is the subnet of that
access point.
-/

namespace I4A

open Forwarder

/-- A link joins two forwarders, one of which is an access point. -/
def Mesh.linksAp {ι : Type*} (t : Mesh ι) : MeshLabel ι → Bool
  | .connect p q _ => (t.ap p || t.ap q) && p.2 ≠ .center && q.2 ≠ .center
  | _ => true

/-- The forwarder has no networks. -/
def RtForwarderState.Blank (state : RtForwarderState) : Prop :=
  state.nodeNetwork = Network.zero ∧ state.deviceNetwork = Network.zero

/-- The forwarder `o` of a node with the network. -/
def RtForwarderState.Holds (state : RtForwarderState) (network : Network) (o : Orientation) :
    Prop :=
  state.nodeNetwork = network ∧ state.deviceNetwork = getNodeSubnet network o

/-- Roles of the same kind; the root's network does not change. -/
def RtRole.SameKind : RtRole → RtRole → Prop
  | .forwarder _, .forwarder _ => True
  | .home _, .home _ => True
  | .root state, .root state' => state'.network = state.network
  | _, _ => False

theorem RtRole.Keeps.sameKind {role role' : RtRole} (h : role.Keeps role') :
    role.SameKind role' := by
  cases role <;> cases role' <;> simp_all [RtRole.Keeps, RtRole.SameKind]

namespace RtRole.SameKind

variable {role' : RtRole}

theorem of_forwarder {state : RtForwarderState} (h : (RtRole.forwarder state).SameKind role') :
    ∃ state', role' = .forwarder state' := by
  cases role' with
  | forwarder state' => exact ⟨state', rfl⟩
  | home _ => exact h.elim
  | root _ => exact h.elim

theorem of_home {state : RtHomeState} (h : (RtRole.home state).SameKind role') :
    ∃ state', role' = .home state' := by
  cases role' with
  | home state' => exact ⟨state', rfl⟩
  | forwarder _ => exact h.elim
  | root _ => exact h.elim

theorem of_root {state : RtRootState} (h : (RtRole.root state).SameKind role') :
    ∃ state', role' = .root state' ∧ state'.network = state.network := by
  cases role' with
  | root state' => exact ⟨state', rfl, h⟩
  | forwarder _ => exact h.elim
  | home _ => exact h.elim

end RtRole.SameKind

namespace Mesh

variable {ι : Type*}

/-- Each board plays the role its node was started with. -/
structure Kinds (root : ι) (network : Network) (t : Mesh ι) : Prop where
  rootCenter : ∃ state, t.role (root, .center) = .root state ∧ state.network = network
  homeCenter : ∀ i, i ≠ root → ∃ state, t.role (i, .center) = .home state
  forwarder : ∀ i o, o ≠ .center → ∃ state, t.role (i, o) = .forwarder state

theorem Kinds.mono {root : ι} {network : Network} {t u : Mesh ι} (h : Kinds root network t)
    (same : ∀ q, (t.role q).SameKind (u.role q)) : Kinds root network u where
  rootCenter := by
    obtain ⟨state, hstate, hnet⟩ := h.rootCenter
    have hk := same (root, .center)
    rw [hstate] at hk
    obtain ⟨state', hstate', hnet'⟩ := hk.of_root
    exact ⟨state', hstate', hnet'.trans hnet⟩
  homeCenter i hi := by
    obtain ⟨state, hstate⟩ := h.homeCenter i hi
    have hk := same (i, .center)
    rw [hstate] at hk
    exact hk.of_home
  forwarder i o ho := by
    obtain ⟨state, hstate⟩ := h.forwarder i o ho
    have hk := same (i, o)
    rw [hstate] at hk
    exact hk.of_forwarder

/-- A forwarder's role can only be found off the center. -/
theorem Kinds.ne_center {root : ι} {network : Network} {t : Mesh ι} (h : Kinds root network t)
    {p : Port ι} {state : RtForwarderState} (hp : t.role p = .forwarder state) :
    p.2 ≠ .center := by
  obtain ⟨i, o⟩ := p
  rintro rfl
  by_cases hi : i = root
  · subst hi
    obtain ⟨state', hstate', -⟩ := h.rootCenter
    rw [hp] at hstate'
    cases hstate'
  · obtain ⟨state', hstate'⟩ := h.homeCenter i hi
    rw [hp] at hstate'
    cases hstate'

/-- The access point `(j, o)` was linked to node `i` while its board was fresh, and `i` may be
provisioned with its subnet. -/
structure Offers (t : Mesh ι) (j : ι) (o : Orientation) (i : ι) (subnet : Network) : Prop where
  forwarder : o ≠ .center
  served : i ∈ t.served (j, o)
  subnet : ∃ network, t.network j = some network ∧ subnet = getNodeSubnet network o

theorem Offers.mono {t u : Mesh ι} {j i : ι} {o : Orientation} {subnet : Network}
    (offer : t.Offers j o i subnet)
    (network : ∀ N, t.network j = some N → u.network j = some N)
    (served : i ∈ t.served (j, o) → i ∈ u.served (j, o)) : u.Offers j o i subnet := by
  obtain ⟨N, hN, hsubnet⟩ := offer.subnet
  exact ⟨offer.forwarder, served offer.served, N, network N hN, hsubnet⟩

structure Provisioned (root : ι) (network : Network) (t : Mesh ι) : Prop where
  kinds : Kinds root network t
  onStart : ∀ p, .onStart ∉ (t.inbox p).tail
  started : t.network root ≠ none → .onStart ∉ t.inbox (root, .center)
  early : t.network root = none →
    (∀ i, t.network i = none) ∧ (∀ p, t.link p = none) ∧ t.pending = []
  provision : ∀ p event, .provision event ∈ t.inbox p → t.network p.1 = some event.network
  networks : ∀ p state, t.role p = .forwarder state →
    state.Blank ∨ ∃ N, t.network p.1 = some N ∧ state.Holds N p.2
  ap : ∀ p, p.2 ≠ .center → t.ap p = true → ∃ state N, t.role p = .forwarder state ∧
    state.globalState ≠ .withoutNetwork ∧ t.network p.1 = some N ∧ state.Holds N p.2
  awaits : ∀ p, t.network p.1 ≠ none → (t.role p).fresh = true →
    ∃ event, .provision event ∈ t.inbox p
  linkSymm : ∀ p q, t.link p = some q → t.link q = some p
  linkForwarder : ∀ p q, t.link p = some q → p.2 ≠ .center
  linkFresh : ∀ p q, t.link p = some q → (t.role q).fresh = true →
    t.ap p = true ∧ q.1 ∈ t.served p
  handshake : ∀ q event, (q, .handshake event) ∈ t.pending → (t.role q).fresh = true →
    ∃ j o, t.Offers j o q.1 event.providedNetwork
  rootNetwork : ∀ N, t.network root = some N → N = network
  parent : ∀ i N, i ≠ root → t.network i = some N →
    ∃ j o, t.Offers j o i N ∧ t.rank j < t.rank i
  clock : ∀ i, t.network i ≠ none → t.rank i < t.clock

namespace Provisioned

variable {root : ι} {network : Network} {t : Mesh ι} {p : Port ι}

theorem rootStarted (h : Provisioned root network t) (hp : t.network p.1 ≠ none) :
    t.network root ≠ none := by
  intro hroot
  exact hp ((h.early hroot).1 p.1)

theorem ap_network (h : Provisioned root network t) (hp : p.2 ≠ .center) (hap : t.ap p = true) :
    t.network p.1 ≠ none := by
  obtain ⟨state, N, -, -, hN, -⟩ := h.ap p hp hap
  simp [hN]

theorem ap_not_fresh (h : Provisioned root network t) (hp : p.2 ≠ .center)
    (hap : t.ap p = true) : (t.role p).fresh = false := by
  obtain ⟨state, N, hstate, hnot, -⟩ := h.ap p hp hap
  rw [hstate]
  simpa [RtRole.fresh] using hnot

end Provisioned

/-! ## The start -/

variable [DecidableEq ι]

theorem start_role (root : ι) (network : Network) (p : Port ι) :
    (Mesh.start root network).role p =
      if p.1 = root then Node.rootRoles network p.2 else Node.homeRoles p.2 := by
  change ((Mesh.start root network).nodes p.1).roles p.2 = _
  by_cases hp : p.1 = root
  · rw [hp, start_nodes_root, if_pos rfl]
    rfl
  · rw [start_nodes_of_ne network hp, if_neg hp]
    rfl

theorem start_inbox (root : ι) (network : Network) (p : Port ι) :
    (Mesh.start root network).inbox p = [.onStart] := by
  change ((Mesh.start root network).nodes p.1).inbox p.2 = _
  by_cases hp : p.1 = root
  · rw [hp, start_nodes_root]
    rfl
  · rw [start_nodes_of_ne network hp]
    rfl

theorem start_forwarder (root : ι) (network : Network) {p : Port ι} (hp : p.2 ≠ .center) :
    (Mesh.start root network).role p = .forwarder createForwarderCore := by
  rw [start_role]
  obtain ⟨i, o⟩ := p
  cases o <;> first | exact absurd rfl hp | (split <;> rfl)

theorem start_kinds (root : ι) (network : Network) :
    Kinds root network (Mesh.start root network) where
  rootCenter := by
    rw [start_role, if_pos rfl]
    exact ⟨_, rfl, rfl⟩
  homeCenter i hi := by
    rw [start_role, if_neg hi]
    exact ⟨_, rfl⟩
  forwarder i o ho := ⟨_, start_forwarder root network ho⟩

theorem Provisioned.start (root : ι) (network : Network) :
    Provisioned root network (Mesh.start root network) := by
  constructor
  case kinds => exact start_kinds root network
  case onStart => simp [start_inbox]
  case started => exact fun h => absurd rfl h
  case early => exact fun _ => ⟨fun _ => rfl, fun _ => rfl, rfl⟩
  case provision => simp [start_inbox]
  case networks =>
    intro p state hstate
    left
    rw [start_forwarder root network ((start_kinds root network).ne_center hstate)] at hstate
    cases hstate
    exact ⟨rfl, rfl⟩
  case ap => exact fun p _ h => by cases h
  case awaits => exact fun p h => absurd rfl h
  case linkSymm => exact fun p q h => by cases h
  case linkForwarder => exact fun p q h => by cases h
  case linkFresh => exact fun p q h => by cases h
  case handshake => exact fun q event h => by cases h
  case rootNetwork => exact fun N h => by cases h
  case parent => exact fun i N _ h => by cases h
  case clock => exact fun i h => absurd rfl h

/-! ## One handled event -/

/-- Board `p` handled an event of a node whose networks stay as they are. -/
structure Handles (t u : Mesh ι) (p : Port ι) : Prop where
  network : u.network = t.network
  rank : u.rank = t.rank
  clock : u.clock = t.clock
  link : u.link = t.link
  served : u.served = t.served
  role : ∀ q, q ≠ p → u.role q = t.role q
  provision : ∀ q event, .provision event ∈ t.inbox q → (u.role q).fresh = true →
    .provision event ∈ u.inbox q
  heard : ∀ q, ∀ ev ∈ u.inbox q,
    ev ∈ t.inbox q ∨ (ev ≠ .onStart ∧ ∀ event, ev ≠ .provision event)
  tail : ∀ q, .onStart ∉ (t.inbox q).tail → .onStart ∉ (u.inbox q).tail
  pending : ∀ m ∈ u.pending, m ∈ t.pending ∨ (t.link p = some m.1 ∧
    ∀ event, m.2 = .handshake event →
      ∃ state, t.role p = .forwarder state ∧ event = Peer.handshakeOf state)

/-- Board `p` provisioned its node. -/
structure Provides (t u : Mesh ι) (p : Port ι) (N : Network) : Prop where
  network : u.network = Function.update t.network p.1 (some N)
  rank : u.rank = Function.update t.rank p.1 t.clock
  clock : u.clock = t.clock + 1
  link : u.link = t.link
  served : u.served = t.served
  ap : u.ap = t.ap
  role : ∀ q, q ≠ p → u.role q = t.role q
  broadcast : ∀ q, q.1 = p.1 → q ≠ p → ∃ event, .provision event ∈ u.inbox q
  heard : ∀ q, ∀ ev ∈ u.inbox q,
    ev ∈ t.inbox q ∨ (q.1 = p.1 ∧ ∃ event, ev = .provision event ∧ event.network = N)
  elsewhere : ∀ q, q.1 ≠ p.1 → u.inbox q = t.inbox q
  tail : ∀ q, .onStart ∉ (t.inbox q).tail → .onStart ∉ (u.inbox q).tail
  pending : ∀ m ∈ u.pending, m ∈ t.pending

namespace Provides

variable {t u : Mesh ι} {p : Port ι} {N : Network}

theorem network_self (hs : Provides t u p N) : u.network p.1 = some N := by
  rw [hs.network, Function.update_self]

theorem network_of_some (hs : Provides t u p N) (hnone : t.network p.1 = none) {i : ι}
    {M : Network} (hi : t.network i = some M) : u.network i = some M := by
  have hne : i ≠ p.1 := by
    rintro rfl
    rw [hnone] at hi
    cases hi
  rw [hs.network, Function.update_of_ne hne]
  exact hi

theorem rank_of_ne_none (hs : Provides t u p N) (hnone : t.network p.1 = none) {i : ι}
    (hi : t.network i ≠ none) : u.rank i = t.rank i := by
  have hne : i ≠ p.1 := by
    rintro rfl
    exact hi hnone
  rw [hs.rank, Function.update_of_ne hne]

theorem offers (hs : Provides t u p N) (hnone : t.network p.1 = none) {i j : ι}
    {o : Orientation} {subnet : Network} (offer : t.Offers j o i subnet) :
    u.Offers j o i subnet :=
  offer.mono (fun _ => hs.network_of_some hnone) (by simp [hs.served])

end Provides

namespace Provisioned

variable {root : ι} {network : Network} {t u : Mesh ι} {p : Port ι}

/-- An event that leaves the networks of all nodes alone. -/
theorem handles (h : Provisioned root network t) (hs : Handles t u p)
    (kind : (t.role p).SameKind (u.role p))
    (fresh : (u.role p).fresh = true → (t.role p).fresh = true)
    (networks : ∀ state, u.role p = .forwarder state →
      state.Blank ∨ ∃ N, t.network p.1 = some N ∧ state.Holds N p.2)
    (apMono : ∀ q, t.ap q = true → u.ap q = true)
    (ap : ∀ q, q.2 ≠ .center → u.ap q = true → ∃ state N, u.role q = .forwarder state ∧
      state.globalState ≠ .withoutNetwork ∧ t.network q.1 = some N ∧ state.Holds N q.2) :
    Provisioned root network u := by
  have hfresh : ∀ q, (u.role q).fresh = true → (t.role q).fresh = true := by
    intro q hq
    by_cases hqp : q = p
    · subst hqp
      exact fresh hq
    · rwa [hs.role q hqp] at hq
  have hkind : ∀ q, (t.role q).SameKind (u.role q) := by
    intro q
    by_cases hqp : q = p
    · subst hqp
      exact kind
    · rw [hs.role q hqp]
      exact (RtRole.Keeps.rfl _).sameKind
  have hoffers : ∀ {j o i N}, t.Offers j o i N → u.Offers j o i N := fun offer =>
    offer.mono (by simp [hs.network]) (by simp [hs.served])
  constructor
  case kinds => exact h.kinds.mono hkind
  case onStart => exact fun q => hs.tail q (h.onStart q)
  case started =>
    rw [hs.network]
    intro hroot hin
    rcases hs.heard _ _ hin with hold | ⟨hne, -⟩
    · exact h.started hroot hold
    · exact hne rfl
  case early =>
    rw [hs.network, hs.link]
    intro hroot
    obtain ⟨hnet, hlink, hpend⟩ := h.early hroot
    refine ⟨hnet, hlink, ?_⟩
    rw [List.eq_nil_iff_forall_not_mem]
    intro m hm
    rcases hs.pending m hm with hold | ⟨hsent, -⟩
    · rw [hpend] at hold
      cases hold
    · rw [hlink p] at hsent
      cases hsent
  case provision =>
    intro q event hin
    rw [hs.network]
    rcases hs.heard _ _ hin with hold | ⟨-, hne⟩
    · exact h.provision q event hold
    · exact absurd rfl (hne event)
  case networks =>
    intro q state hstate
    rw [hs.network]
    by_cases hqp : q = p
    · subst hqp
      exact networks state hstate
    · rw [hs.role q hqp] at hstate
      exact h.networks q state hstate
  case ap =>
    rw [hs.network]
    exact ap
  case awaits =>
    rw [hs.network]
    intro q hq hf
    obtain ⟨event, hin⟩ := h.awaits q hq (hfresh q hf)
    exact ⟨event, hs.provision q event hin hf⟩
  case linkSymm =>
    rw [hs.link]
    exact h.linkSymm
  case linkForwarder =>
    rw [hs.link]
    exact h.linkForwarder
  case linkFresh =>
    rw [hs.link, hs.served]
    intro a b hab hf
    obtain ⟨hap, hserved⟩ := h.linkFresh a b hab (hfresh b hf)
    exact ⟨apMono a hap, hserved⟩
  case handshake =>
    intro q event hin hf
    rcases hs.pending _ hin with hold | ⟨hlink, hsent⟩
    · obtain ⟨j, o, offer⟩ := h.handshake q event hold (hfresh q hf)
      exact ⟨j, o, hoffers offer⟩
    · -- the sender is an access point, since the link's other end is fresh
      obtain ⟨state, hstate, rfl⟩ := hsent event rfl
      obtain ⟨hap, hserved⟩ := h.linkFresh p q hlink (hfresh q hf)
      have hforwarder := h.linkForwarder p q hlink
      obtain ⟨state', N, hstate', -, hN, hholds⟩ := h.ap p hforwarder hap
      rw [hstate] at hstate'
      cases hstate'
      exact ⟨p.1, p.2, hoffers ⟨hforwarder, hserved, N, hN, hholds.2⟩⟩
  case rootNetwork =>
    rw [hs.network]
    exact h.rootNetwork
  case parent =>
    rw [hs.network, hs.rank]
    intro i N hi hN
    obtain ⟨j, o, offer, hlt⟩ := h.parent i N hi hN
    exact ⟨j, o, hoffers offer, hlt⟩
  case clock =>
    rw [hs.network, hs.rank, hs.clock]
    exact h.clock

/-- An event by which a node gets its network. -/
theorem provides (h : Provisioned root network t) {N : Network} (hs : Provides t u p N)
    (unprovisioned : t.network p.1 = none)
    (kind : (t.role p).SameKind (u.role p))
    (notFresh : (u.role p).fresh = false)
    (networks : ∀ state, u.role p = .forwarder state → state.Holds N p.2)
    (origin : (p.1 = root ∧ N = network ∧ .onStart ∉ u.inbox (root, .center)) ∨
      (p.1 ≠ root ∧ t.network root ≠ none ∧ ∃ j o, t.Offers j o p.1 N)) :
    Provisioned root network u := by
  have hself := hs.network_self
  have hkept {i : ι} {M : Network} (hi : t.network i = some M) : u.network i = some M :=
    hs.network_of_some unprovisioned hi
  have hrank {i : ι} (hi : t.network i ≠ none) : u.rank i = t.rank i :=
    hs.rank_of_ne_none unprovisioned hi
  have hfresh : ∀ q, (u.role q).fresh = true → q ≠ p ∧ (t.role q).fresh = true := by
    intro q hq
    have hqp : q ≠ p := by
      rintro rfl
      rw [notFresh] at hq
      cases hq
    rw [hs.role q hqp] at hq
    exact ⟨hqp, hq⟩
  have hkind : ∀ q, (t.role q).SameKind (u.role q) := by
    intro q
    by_cases hqp : q = p
    · subst hqp
      exact kind
    · rw [hs.role q hqp]
      exact (RtRole.Keeps.rfl _).sameKind
  have hoffers {j i : ι} {o : Orientation} {M : Network} (offer : t.Offers j o i M) :
      u.Offers j o i M := hs.offers unprovisioned offer
  have hap : ∀ q, q.2 ≠ .center → t.ap q = true → q ≠ p := by
    rintro q hq hapq rfl
    exact h.ap_network hq hapq unprovisioned
  constructor
  case kinds => exact h.kinds.mono hkind
  case onStart => exact fun q => hs.tail q (h.onStart q)
  case started =>
    intro _ hin
    rcases origin with ⟨-, -, hnot⟩ | ⟨hne, hroot, -⟩
    · exact hnot hin
    · rw [hs.elsewhere _ (Ne.symm hne)] at hin
      exact h.started hroot hin
  case early =>
    intro hnone
    rcases origin with ⟨hp, -⟩ | ⟨hp, hroot, -⟩
    · rw [← hp, hself] at hnone
      cases hnone
    · rw [hs.network, Function.update_of_ne (Ne.symm hp)] at hnone
      exact absurd hnone hroot
  case provision =>
    intro q event hin
    rcases hs.heard _ _ hin with hold | ⟨hq, event', heq, hN⟩
    · exact hkept (h.provision q event hold)
    · cases heq
      rw [hq, hself, hN]
  case networks =>
    intro q state hstate
    by_cases hqp : q = p
    · subst hqp
      exact .inr ⟨N, hself, networks state hstate⟩
    · rw [hs.role q hqp] at hstate
      rcases h.networks q state hstate with hblank | ⟨M, hM, hholds⟩
      · exact .inl hblank
      · exact .inr ⟨M, hkept hM, hholds⟩
  case ap =>
    intro q hq hapq
    rw [hs.ap] at hapq
    obtain ⟨state, M, hstate, hnot, hM, hholds⟩ := h.ap q hq hapq
    exact ⟨state, M, by rw [hs.role q (hap q hq hapq)]; exact hstate, hnot, hkept hM, hholds⟩
  case awaits =>
    intro q hq hf
    obtain ⟨hqp, hold⟩ := hfresh q hf
    by_cases hnode : q.1 = p.1
    · exact hs.broadcast q hnode hqp
    · rw [hs.network, Function.update_of_ne hnode] at hq
      rw [hs.elsewhere q hnode]
      exact h.awaits q hq hold
  case linkSymm =>
    rw [hs.link]
    exact h.linkSymm
  case linkForwarder =>
    rw [hs.link]
    exact h.linkForwarder
  case linkFresh =>
    rw [hs.link, hs.served, hs.ap]
    exact fun a b hab hf => h.linkFresh a b hab (hfresh b hf).2
  case handshake =>
    intro q event hin hf
    obtain ⟨j, o, offer⟩ := h.handshake q event (hs.pending _ hin) (hfresh q hf).2
    exact ⟨j, o, hoffers offer⟩
  case rootNetwork =>
    intro M hM
    by_cases hp : root = p.1
    · rcases origin with ⟨-, hN, -⟩ | ⟨hne, -⟩
      · rw [hp, hself] at hM
        cases hM
        exact hN
      · exact absurd hp.symm hne
    · rw [hs.network, Function.update_of_ne hp] at hM
      exact h.rootNetwork M hM
  case parent =>
    intro i M hi hM
    by_cases hp : i = p.1
    · subst hp
      rw [hself] at hM
      cases hM
      rcases origin with ⟨hroot, -⟩ | ⟨-, -, j, o, offer⟩
      · exact absurd hroot hi
      · obtain ⟨L, hL, -⟩ := offer.subnet
        have hj : t.network j ≠ none := by simp [hL]
        refine ⟨j, o, hoffers offer, ?_⟩
        rw [hrank hj, hs.rank, Function.update_self]
        exact h.clock j hj
    · rw [hs.network, Function.update_of_ne hp] at hM
      obtain ⟨j, o, offer, hlt⟩ := h.parent i M hi hM
      obtain ⟨L, hL, -⟩ := offer.subnet
      refine ⟨j, o, hoffers offer, ?_⟩
      rw [hrank (by simp [hL]), hrank (by simp [hM])]
      exact hlt
  case clock =>
    intro i hi
    rw [hs.clock]
    by_cases hp : i = p.1
    · subst hp
      rw [hs.rank, Function.update_self]
      omega
    · rw [hs.network, Function.update_of_ne hp] at hi
      rw [hrank hi]
      have := h.clock i hi
      omega

end Provisioned

/-! ## Links and losses -/

variable {root : ι} {network : Network} {t u : Mesh ι}

theorem mem_serve_of_mem {p q x : Port ι} {i : ι} (hi : i ∈ t.served x)
    (hold : x = p → t.ap p = true → t.holds p i = true) : i ∈ t.serve p q x := by
  unfold serve
  split
  · next hc =>
    by_cases hx : x = p
    · subst hx
      rw [Function.update_self]
      exact List.mem_cons_of_mem _ (List.mem_filter.mpr ⟨hi, hold rfl hc.1⟩)
    · rwa [Function.update_of_ne hx]
  · exact hi

theorem mem_serve_self {p q : Port ι} (hap : t.ap p = true) (hfresh : (t.role q).fresh = true) :
    q.1 ∈ t.serve p q p := by
  simp [serve, hap, hfresh]

@[simp] theorem connect_role (t : Mesh ι) (p q : Port ι) (connection : Network) :
    (t.connect p q connection).role = t.role := rfl

@[simp] theorem connect_inbox (t : Mesh ι) (p q : Port ι) (connection : Network) :
    (t.connect p q connection).inbox = t.inbox := rfl

@[simp] theorem connect_gateway (t : Mesh ι) (p q : Port ι) (connection : Network) :
    (t.connect p q connection).gateway = t.gateway := rfl

theorem connect_served_mono {p q x : Port ι} {connection : Network} {i : ι}
    (hi : i ∈ t.served x) (hold : t.ap x = true → t.holds x i = true) :
    i ∈ (t.connect p q connection).served x := by
  refine mem_serve_of_mem (mem_serve_of_mem hi ?_) ?_
  · rintro rfl hap
    exact hold hap
  · rintro rfl hap
    exact hold hap

theorem connect_served_of_ne {p q x : Port ι} {connection : Network} (hp : x ≠ p) (hq : x ≠ q) :
    (t.connect p q connection).served x = t.served x := by
  have hserve : ∀ (s : Mesh ι) (a b : Port ι), x ≠ a → s.serve a b x = s.served x := by
    intro s a b hx
    unfold serve
    split
    · rw [Function.update_of_ne hx]
    · rfl
  change ({ t with served := t.serve p q }).serve q p x = _
  rw [hserve _ q p hq]
  exact hserve t p q hp

theorem connect_served_left {p q : Port ι} {connection : Network} (hpq : p ≠ q)
    (hap : t.ap p = true) (hfresh : (t.role q).fresh = true) :
    q.1 ∈ (t.connect p q connection).served p :=
  mem_serve_of_mem (mem_serve_self hap hfresh) fun h => absurd h hpq

theorem connect_served_right {p q : Port ι} {connection : Network} (hap : t.ap q = true)
    (hfresh : (t.role p).fresh = true) : p.1 ∈ (t.connect p q connection).served q :=
  mem_serve_self hap hfresh

/-- The links after a connection: the new one and those there were. -/
theorem connect_link {p q a b : Port ι} {connection : Network} (hpq : p ≠ q) :
    (t.connect p q connection).link a = some b ↔
      (a = p ∧ b = q) ∨ (a = q ∧ b = p) ∨ (a ≠ p ∧ a ≠ q ∧ t.link a = some b) := by
  simp only [connect]
  by_cases haq : a = q
  · subst haq
    simp [Ne.symm hpq, eq_comm]
  · rw [Function.update_of_ne haq]
    by_cases hap : a = p
    · subst hap
      simp [hpq, eq_comm]
    · simp [hap, haq]

theorem disconnect_link {p q a b : Port ι} {connection : Network}
    (h : (t.disconnect p q connection).link a = some b) :
    a ≠ p ∧ a ≠ q ∧ t.link a = some b := by
  simp only [disconnect] at h
  by_cases haq : a = q
  · subst haq
    simp at h
  · rw [Function.update_of_ne haq] at h
    by_cases hap : a = p
    · subst hap
      simp at h
    · rw [Function.update_of_ne hap] at h
      exact ⟨hap, haq, h⟩

namespace Provisioned

variable {p q : Port ι}

theorem holds_of_offer (h : Provisioned root network t) {j i : ι} {o : Orientation} {N : Network}
    (offer : t.Offers j o i N) (hap : t.ap (j, o) = true)
    (needs : t.network i = some N ∨
      ∃ b event, (b, .handshake event) ∈ t.pending ∧ b.1 = i ∧ event.providedNetwork = N) :
    t.holds (j, o) i = true := by
  obtain ⟨state, M, hstate, -, hM, hholds⟩ := h.ap (j, o) offer.forwarder hap
  obtain ⟨M', hM', rfl⟩ := offer.subnet
  rw [hM] at hM'
  cases hM'
  simp only [holds, hstate, hholds.2, Bool.or_eq_true, decide_eq_true_eq, List.any_eq_true,
    Bool.and_eq_true]
  rcases needs with hi | ⟨b, event, hin, hb, hprovided⟩
  · exact .inl hi
  · exact .inr ⟨_, hin, hb, by simpa [RtPeerEvent.provides] using hprovided⟩

theorem connect (h : Provisioned root network t) {connection : Network} (hpq : p ≠ q)
    (hp : t.link p = none) (hq : t.link q = none)
    (links : t.linksAp (.connect p q connection) = true) :
    Provisioned root network (t.connect p q connection) := by
  simp only [linksAp, Bool.and_eq_true, Bool.or_eq_true, decide_eq_true_eq] at links
  obtain ⟨⟨hap, hpc⟩, hqc⟩ := links
  have hroot : t.network root ≠ none := by
    rcases hap with hap | hap
    · exact h.rootStarted (h.ap_network hpc hap)
    · exact h.rootStarted (h.ap_network hqc hap)
  have hoffers : ∀ {j o i N}, t.Offers j o i N → (t.network i = some N ∨
      ∃ b event, (b, .handshake event) ∈ t.pending ∧ b.1 = i ∧ event.providedNetwork = N) →
      (t.connect p q connection).Offers j o i N := by
    intro j o i N offer hneeds
    refine offer.mono (fun _ => id) fun hserved => connect_served_mono hserved fun hap => ?_
    exact h.holds_of_offer offer hap hneeds
  constructor
  case kinds => exact ⟨h.kinds.rootCenter, h.kinds.homeCenter, h.kinds.forwarder⟩
  case onStart => exact h.onStart
  case started => exact h.started
  case early => exact fun hnone => absurd hnone hroot
  case provision => exact h.provision
  case networks => exact h.networks
  case ap => exact h.ap
  case awaits => exact h.awaits
  case linkSymm =>
    intro a b hab
    rw [connect_link hpq] at hab ⊢
    rcases hab with ⟨rfl, rfl⟩ | ⟨rfl, rfl⟩ | ⟨hap', haq', hab⟩
    · exact .inr (.inl ⟨rfl, rfl⟩)
    · exact .inl ⟨rfl, rfl⟩
    · have hba := h.linkSymm a b hab
      refine .inr (.inr ⟨?_, ?_, hba⟩)
      · rintro rfl
        rw [hp] at hba
        cases hba
      · rintro rfl
        rw [hq] at hba
        cases hba
  case linkForwarder =>
    intro a b hab
    rw [connect_link hpq] at hab
    rcases hab with ⟨rfl, rfl⟩ | ⟨rfl, rfl⟩ | ⟨-, -, hab⟩
    · exact hpc
    · exact hqc
    · exact h.linkForwarder a b hab
  case linkFresh =>
    intro a b hab hf
    rw [connect_link hpq] at hab
    rcases hab with ⟨rfl, rfl⟩ | ⟨rfl, rfl⟩ | ⟨hne, hne', hab⟩
    · have hap' : t.ap a = true := by
        refine hap.resolve_right fun hb => ?_
        have hnot := h.ap_not_fresh hqc hb
        rw [connect_role, hnot] at hf
        cases hf
      exact ⟨hap', connect_served_left hpq hap' hf⟩
    · have hap' : t.ap a = true := by
        refine hap.resolve_left fun hb => ?_
        have hnot := h.ap_not_fresh hpc hb
        rw [connect_role, hnot] at hf
        cases hf
      exact ⟨hap', connect_served_right hap' hf⟩
    · obtain ⟨hap', hserved⟩ := h.linkFresh a b hab hf
      refine ⟨hap', ?_⟩
      rwa [connect_served_of_ne hne hne']
  case handshake =>
    intro b event hin hf
    have hold : (b, .handshake event) ∈ t.pending := by
      simpa [Mesh.connect] using hin
    obtain ⟨j, o, offer⟩ := h.handshake b event hold hf
    exact ⟨j, o, hoffers offer (.inr ⟨b, event, hold, rfl, rfl⟩)⟩
  case rootNetwork => exact h.rootNetwork
  case parent =>
    intro i N hi hN
    obtain ⟨j, o, offer, hlt⟩ := h.parent i N hi hN
    exact ⟨j, o, hoffers offer (.inl hN), hlt⟩
  case clock => exact h.clock

theorem disconnect (h : Provisioned root network t) {connection : Network}
    (hlink : t.link p = some q) : Provisioned root network (t.disconnect p q connection) := by
  have hroot : t.network root ≠ none := by
    intro hnone
    rw [(h.early hnone).2.1 p] at hlink
    cases hlink
  have hqp := h.linkSymm p q hlink
  constructor
  case kinds => exact ⟨h.kinds.rootCenter, h.kinds.homeCenter, h.kinds.forwarder⟩
  case onStart => exact h.onStart
  case started => exact h.started
  case early => exact fun hnone => absurd hnone hroot
  case provision => exact h.provision
  case networks => exact h.networks
  case ap => exact h.ap
  case awaits => exact h.awaits
  case linkSymm =>
    intro a b hab
    obtain ⟨hap, haq, hab⟩ := disconnect_link hab
    have hba := h.linkSymm a b hab
    have hbp : b ≠ p := by
      rintro rfl
      rw [hlink] at hba
      cases hba
      exact haq rfl
    have hbq : b ≠ q := by
      rintro rfl
      rw [hqp] at hba
      cases hba
      exact hap rfl
    simp [Mesh.disconnect, hbp, hbq, hba]
  case linkForwarder => exact fun a b hab => h.linkForwarder a b (disconnect_link hab).2.2
  case linkFresh => exact fun a b hab hf => h.linkFresh a b (disconnect_link hab).2.2 hf
  case handshake =>
    intro b event hin hf
    have hold : (b, .handshake event) ∈ t.pending := by
      simpa [Mesh.disconnect] using hin
    obtain ⟨j, o, offer⟩ := h.handshake b event hold hf
    exact ⟨j, o, offer.mono (fun _ => id) id⟩
  case rootNetwork => exact h.rootNetwork
  case parent =>
    intro i N hi hN
    obtain ⟨j, o, offer, hlt⟩ := h.parent i N hi hN
    exact ⟨j, o, offer.mono (fun _ => id) id, hlt⟩
  case clock => exact h.clock

/-- A message that is lost, or an event taken out to be handled. -/
theorem take (h : Provisioned root network t) (ev : RtPeerEvent) :
    Provisioned root network (t.take p ev) where
  kinds := ⟨h.kinds.rootCenter, h.kinds.homeCenter, h.kinds.forwarder⟩
  onStart := h.onStart
  started := h.started
  early hnone := by
    obtain ⟨hnet, hlink, hpend⟩ := h.early hnone
    refine ⟨hnet, hlink, ?_⟩
    simp [Mesh.take, hpend]
  provision := h.provision
  networks := h.networks
  ap := h.ap
  awaits := h.awaits
  linkSymm := h.linkSymm
  linkForwarder := h.linkForwarder
  linkFresh := h.linkFresh
  handshake q event hin hf := by
    obtain ⟨j, o, offer⟩ := h.handshake q event (List.mem_of_mem_erase hin) hf
    exact ⟨j, o, offer.mono (fun _ => id) id⟩
  rootNetwork := h.rootNetwork
  parent i N hi hN := by
    obtain ⟨j, o, offer, hlt⟩ := h.parent i N hi hN
    exact ⟨j, o, offer.mono (fun _ => id) id, hlt⟩
  clock := h.clock

end Provisioned

/-! ## Handlers -/

/-- The node whose board `p` handles an event, with what is left of its inbox. -/
structure Ready (t : Mesh ι) (p : Port ι) (n : Node) : Prop where
  table : n.table = (t.nodes p.1).table
  roles : n.roles = (t.nodes p.1).roles
  other : ∀ o, o ≠ p.2 → n.inbox o = (t.nodes p.1).inbox o

omit [DecidableEq ι] in
theorem ready_self (t : Mesh ι) (p : Port ι) : t.Ready p (t.nodes p.1) := ⟨rfl, rfl, fun _ _ => rfl⟩

omit [DecidableEq ι] in
theorem ready_pop (t : Mesh ι) (p : Port ι) (rest : List RtSiblEvent) :
    t.Ready p ((t.nodes p.1).pop p.2 rest) :=
  ⟨rfl, rfl, fun _ ho => Node.pop_inbox_of_ne _ ho rest⟩

theorem act_ap_mono {s : Mesh ι} {p q : Port ι} {node : Node} {actions : List RtAction}
    (h : s.ap q = true) : (s.act p node actions).ap q = true := by
  simp only [act]
  split
  · by_cases hqp : q = p
    · rw [hqp, Function.update_self]
    · rwa [Function.update_of_ne hqp]
  · exact h

private theorem onStart_tail_append {l answers : List RtSiblEvent}
    (hl : .onStart ∉ l.tail) (ha : ∀ ev ∈ answers, ev ≠ .onStart) :
    .onStart ∉ (l ++ answers).tail := by
  intro hin
  cases l with
  | nil => exact ha _ (List.mem_of_mem_tail hin) rfl
  | cons ev rest =>
      rcases List.mem_append.mp hin with hold | hnew
      · exact hl hold
      · exact ha _ hnew rfl

section Act

variable {p : Port ι} {n : Node} (result : RtRole × List RtAction)
  (pending : List (Port ι × RtPeerEvent))

theorem act_role (s : Mesh ι) (hn : t.Ready p n) (hs : s.nodes = t.nodes) (q : Port ι) :
    (s.act p (n.act p.2 result) result.2).role q = if q = p then result.1 else t.role q := by
  have hrole : s.role q = t.role q := by rw [role, hs, role]
  by_cases hqp : q = p
  · rw [if_pos hqp, hqp, act_role_self]
  · rw [if_neg hqp, ← hrole]
    exact act_role_of_ne s hqp (by rw [hs]; exact hn.roles) result result.2

theorem act_inbox (s : Mesh ι) (hn : t.Ready p n) (hs : s.nodes = t.nodes) (q : Port ι) :
    (s.act p (n.act p.2 result) result.2).inbox q =
      if q = p then n.inbox p.2
      else if q.1 = p.1 then t.inbox q ++ siblEvents result.2 else t.inbox q := by
  have hinbox : s.inbox q = t.inbox q := by rw [inbox, hs, inbox]
  by_cases hqp : q = p
  · rw [if_pos hqp, hqp, act_inbox_self]
  · rw [if_neg hqp, ← hinbox]
    by_cases hnode : q.1 = p.1
    · rw [if_pos hnode]
      exact act_inbox_sibling s hnode hqp (by rw [hs]; exact hn.other) result result.2
    · rw [if_neg hnode]
      exact act_inbox_of_node_ne s hnode (n.act p.2 result) result.2

theorem act_table (s : Mesh ι) (hn : t.Ready p n) (hs : s.nodes = t.nodes) (i : ι) :
    ((s.act p (n.act p.2 result) result.2).nodes i).table =
      if i = p.1 then tableAfter (t.nodes i).table result.2 else (t.nodes i).table := by
  by_cases hi : i = p.1
  · subst hi
    rw [if_pos rfl]
    simp only [act, Function.update_self, Node.act_table, hn.table]
  · rw [if_neg hi]
    simp only [act, Function.update_of_ne hi, hs]

theorem act_gateway (s : Mesh ι) (hn : t.Ready p n) (hs : s.nodes = t.nodes) (i : ι) :
    (s.act p (n.act p.2 result) result.2).gateway i =
      if i = p.1 then gatewayAfter (t.gateway p.1) result.2 else t.gateway i := by
  rw [gateway, act_table result s hn hs]
  split
  · next hi =>
    rw [tableAfter_defaultGateway, hi]
    rfl
  · rfl

theorem mem_act_pending {m : Port ι × RtPeerEvent}
    (h : m ∈ ({ t with pending := pending }.act p (n.act p.2 result) result.2).pending) :
    m ∈ pending ∨ (t.link p = some m.1 ∧ m.2 ∈ peerMessages result.2) := by
  rcases List.mem_append.mp h with hold | hnew
  · exact .inl hold
  · obtain ⟨q, ev⟩ := m
    exact .inr (mem_send.mp hnew)

/-- An event whose handler provisions nobody. -/
theorem handles_act (hsub : ∀ m ∈ pending, m ∈ t.pending) (hn : t.Ready p n)
    (hself : n.inbox p.2 = t.inbox p ∨ ∃ ev, t.inbox p = ev :: n.inbox p.2 ∧
      ∀ event, ev = .provision event → result.1.fresh = false)
    (answer : ∀ ev ∈ siblEvents result.2, ev ≠ .onStart ∧ ∀ event, ev ≠ .provision event)
    (handshake : ∀ event, .handshake event ∈ peerMessages result.2 →
      ∃ state, t.role p = .forwarder state ∧ event = Peer.handshakeOf state) :
    Handles t ({ t with pending := pending }.act p (n.act p.2 result) result.2) p where
  network := rfl
  rank := rfl
  clock := rfl
  link := rfl
  served := rfl
  role q hq := by rw [act_role result { t with pending := pending } hn rfl, if_neg hq]
  provision q event hin hf := by
    rw [act_inbox result { t with pending := pending } hn rfl]
    by_cases hqp : q = p
    · subst hqp
      rw [if_pos rfl]
      rw [act_role result { t with pending := pending } hn rfl, if_pos rfl] at hf
      rcases hself with hsame | ⟨ev, hcons, hnot⟩
      · rwa [hsame]
      · rw [hcons] at hin
        rcases List.mem_cons.mp hin with heq | hrest
        · rw [hnot event heq.symm] at hf
          cases hf
        · exact hrest
    · rw [if_neg hqp]
      split
      · exact List.mem_append_left _ hin
      · exact hin
  heard q ev hin := by
    rw [act_inbox result { t with pending := pending } hn rfl] at hin
    by_cases hqp : q = p
    · subst hqp
      rw [if_pos rfl] at hin
      left
      rcases hself with hsame | ⟨ev', hcons, -⟩
      · rwa [hsame] at hin
      · rw [hcons]
        exact List.mem_cons_of_mem _ hin
    · rw [if_neg hqp] at hin
      split at hin
      · exact (List.mem_append.mp hin).imp id (answer ev)
      · exact .inl hin
  tail q hq := by
    rw [act_inbox result { t with pending := pending } hn rfl]
    by_cases hqp : q = p
    · subst hqp
      rw [if_pos rfl]
      rcases hself with hsame | ⟨ev', hcons, -⟩
      · rwa [hsame]
      · rw [hcons, List.tail_cons] at hq
        exact fun hin => hq (List.mem_of_mem_tail hin)
    · rw [if_neg hqp]
      split
      · exact onStart_tail_append hq fun ev hev => (answer ev hev).1
      · exact hq
  pending m hm := by
    rcases mem_act_pending result pending hm with hold | ⟨hlink, hsent⟩
    · exact .inl (hsub m hold)
    · exact .inr ⟨hlink, fun event hevent => handshake event (hevent ▸ hsent)⟩

/-- An event whose handler broadcasts the provision of its node. -/
theorem provides_act {N : Network} (event : RtSiblProvision)
    (hsub : ∀ m ∈ pending, m ∈ t.pending) (hn : t.Ready p n)
    (hself : n.inbox p.2 = t.inbox p ∨ ∃ ev, t.inbox p = ev :: n.inbox p.2)
    (hevent : event.network = N) (hsibl : siblEvents result.2 = [.provision event])
    (hpeer : peerMessages result.2 = []) (hap : apEnabled result.2 = false) :
    Provides t (({ t with pending := pending }.record p.1 (some N)).act p (n.act p.2 result)
      result.2) p N where
  network := rfl
  rank := rfl
  clock := rfl
  link := rfl
  served := rfl
  ap := by simp [act, hap]
  role q hq := by
    rw [act_role result (record { t with pending := pending } p.1 (some N)) hn rfl, if_neg hq]
  broadcast q hnode hqp := by
    rw [act_inbox result (record { t with pending := pending } p.1 (some N)) hn rfl, if_neg hqp,
      if_pos hnode, hsibl]
    exact ⟨event, by simp⟩
  heard q ev hin := by
    rw [act_inbox result (record { t with pending := pending } p.1 (some N)) hn rfl] at hin
    by_cases hqp : q = p
    · subst hqp
      rw [if_pos rfl] at hin
      left
      rcases hself with hsame | ⟨ev', hcons⟩
      · rwa [hsame] at hin
      · rw [hcons]
        exact List.mem_cons_of_mem _ hin
    · rw [if_neg hqp] at hin
      split at hin
      · next hnode =>
        rw [hsibl] at hin
        exact (List.mem_append.mp hin).imp id fun hnew =>
          ⟨hnode, event, List.mem_singleton.mp hnew, hevent⟩
      · exact .inl hin
  elsewhere q hq := by
    have hqp : q ≠ p := fun heq => hq (by rw [heq])
    rw [act_inbox result (record { t with pending := pending } p.1 (some N)) hn rfl, if_neg hqp,
      if_neg hq]
  tail q hq := by
    rw [act_inbox result (record { t with pending := pending } p.1 (some N)) hn rfl]
    by_cases hqp : q = p
    · subst hqp
      rw [if_pos rfl]
      rcases hself with hsame | ⟨ev', hcons⟩
      · rwa [hsame]
      · rw [hcons, List.tail_cons] at hq
        exact fun hin => hq (List.mem_of_mem_tail hin)
    · rw [if_neg hqp]
      split
      · rw [hsibl]
        refine onStart_tail_append hq fun ev hev => ?_
        rw [List.mem_singleton.mp hev]
        exact RtSiblEvent.noConfusion
      · exact hq
  pending m hm := by
    rcases List.mem_append.mp hm with hold | hnew
    · exact hsub m hold
    · rw [hpeer] at hnew
      obtain ⟨q, ev⟩ := m
      have hsent := mem_send.mp hnew
      simp at hsent

end Act

/-! ## One step -/

/-- A sibling step is the root's start, opens an access point, or is ordinary. -/
theorem sibl_cases {p : Port ι} (h : t.step (.sibl p) = some u) :
    ∃ ev rest, t.inbox p = ev :: rest ∧
      ((∃ state, t.role p = .root state ∧ ev = .onStart ∧
          u = (t.record p.1 (some state.network)).act p
            (((t.nodes p.1).pop p.2 rest).act p.2 (RtRole.ofRoot (Root.onStart p.2 state)))
            (Root.onStart p.2 state).2) ∨
        ∃ result, dispatchSibl p.2 (t.role p) ev = some result ∧
          (t.role p).startsWith ev = none ∧
          u = t.act p (((t.nodes p.1).pop p.2 rest).act p.2 result) result.2 ∧
          ((∃ state event, t.role p = .forwarder state ∧ ev = .provision event ∧
              state.globalState ≠ .withNetwork ∧
              result = (.forwarder (Sibling.provisioned p.2 state event),
                [.wlEnableApMode (getNodeSubnet event.network p.2)])) ∨
            Ordinary (t.role p) result)) := by
  obtain ⟨ev, rest, result, hin, hd, rfl⟩ := step_sibl h
  refine ⟨ev, rest, hin, ?_⟩
  rcases dispatchSibl_cases hd with ⟨state, hrole, rfl, hresult⟩ | hcases
  · refine .inl ⟨state, hrole, rfl, ?_⟩
    rw [hresult, hrole]
    rfl
  · by_cases hstart : (t.role p).startsWith ev = none
    · refine .inr ⟨result, hd, hstart, ?_, hcases⟩
      rw [hstart]
      rfl
    · cases hrole : t.role p with
      | root state =>
          cases ev with
          | onStart =>
              rw [hrole] at hd
              cases hd
              exact .inl ⟨state, rfl, rfl, rfl⟩
          | _ =>
              rw [hrole] at hstart
              exact absurd rfl hstart
      | forwarder state =>
          rw [hrole] at hstart
          exact absurd rfl hstart
      | home state =>
          rw [hrole] at hstart
          exact absurd rfl hstart

/-- A peer step is a provisioning handshake or ordinary. -/
theorem peer_cases {p : Port ι} {ev : RtPeerEvent} (h : t.step (.peer p ev) = some u) :
    (p, ev) ∈ t.pending ∧ t.inbox p = [] ∧
      ((∃ state event, t.role p = .forwarder state ∧ state.globalState = .withoutNetwork ∧
          ev = .handshake event ∧
          u = ((t.take p ev).record p.1 (some event.providedNetwork)).act p
            ((t.nodes p.1).act p.2 (RtRole.ofForwarder (Peer.onHandshake p.2 state event)))
            (Peer.onHandshake p.2 state event).2) ∨
        ∃ result, dispatchPeer p.2 (t.role p) ev = some result ∧
          (t.role p).provisionedBy ev = none ∧
          u = (t.take p ev).act p ((t.nodes p.1).act p.2 result) result.2 ∧
          Ordinary (t.role p) result) := by
  obtain ⟨hpend, hin, result, hd, rfl⟩ := step_peer h
  refine ⟨hpend, hin, ?_⟩
  rcases dispatchPeer_cases hd with ⟨state, event, hrole, rfl, hwithout, hresult⟩ | hord
  · refine .inl ⟨state, event, hrole, hwithout, rfl, ?_⟩
    rw [hresult, hrole, RtRole.provisionedBy, if_pos (by simpa using hwithout)]
    rfl
  · by_cases hnone : (t.role p).provisionedBy ev = none
    · refine .inr ⟨result, hd, hnone, ?_, hord⟩
      rw [hnone]
      rfl
    · cases ev with
      | handshake event =>
          have hfresh : (t.role p).fresh = true := by
            by_contra hnot
            exact hnone (by rw [RtRole.provisionedBy, if_neg hnot])
          cases hrole : t.role p with
          | forwarder state =>
              rw [hrole] at hd hfresh
              cases hd
              refine .inl ⟨state, event, rfl, by simpa using hfresh, rfl, ?_⟩
              rw [RtRole.provisionedBy, if_pos hfresh]
              rfl
          | home state =>
              rw [hrole] at hfresh
              cases hfresh
          | root state =>
              rw [hrole] at hfresh
              cases hfresh
      | _ => exact absurd rfl hnone

namespace Provisioned

variable {p : Port ι}

/-- An ordinary event. -/
theorem ordinary (h : Provisioned root network t) {n : Node} (result : RtRole × List RtAction)
    (pending : List (Port ι × RtPeerEvent)) (hsub : ∀ m ∈ pending, m ∈ t.pending)
    (hn : t.Ready p n) (hord : Ordinary (t.role p) result)
    (hself : n.inbox p.2 = t.inbox p ∨ ∃ ev, t.inbox p = ev :: n.inbox p.2 ∧
      ∀ event, ev = .provision event → result.1.fresh = false) :
    Provisioned root network
      ({ t with pending := pending }.act p (n.act p.2 result) result.2) := by
  have hrole : ({ t with pending := pending }.act p (n.act p.2 result) result.2).role p =
      result.1 := by
    rw [act_role result { t with pending := pending } hn rfl, if_pos rfl]
  have hkeeps := hord.keeps
  refine h.handles (handles_act result pending hsub hn hself hord.answer hord.handshake)
    ?_ ?_ ?_ ?_ ?_
  · rw [hrole]
    exact hkeeps.sameKind
  · rw [hrole]
    exact hkeeps.fresh
  · intro state hstate
    rw [hrole] at hstate
    rw [hstate] at hkeeps
    cases hold : t.role p with
    | forwarder old =>
        rw [hold] at hkeeps
        obtain ⟨hnode, hdevice, -⟩ := hkeeps
        rcases h.networks p old hold with hblank | ⟨N, hN, hholds⟩
        · exact .inl ⟨hnode.trans hblank.1, hdevice.trans hblank.2⟩
        · exact .inr ⟨N, hN, hnode.trans hholds.1, hdevice.trans hholds.2⟩
    | home old => rw [hold] at hkeeps; exact hkeeps.elim
    | root old => rw [hold] at hkeeps; exact hkeeps.elim
  · intro q hq
    exact act_ap_mono hq
  · intro q hq hap
    have hapq : t.ap q = true := by
      simp only [act] at hap
      split at hap
      · next hen =>
        -- only a board in the center opens an access point this way
        by_cases hqp : q = p
        · subst hqp
          obtain ⟨state, hstate⟩ := h.kinds.forwarder q.1 q.2 hq
          rw [hord.noAp state hstate] at hen
          cases hen
        · rwa [Function.update_of_ne hqp] at hap
      · exact hap
    obtain ⟨state, N, hstate, hnot, hN, hholds⟩ := h.ap q hq hapq
    by_cases hqp : q = p
    · subst hqp
      rw [hrole]
      rw [hstate] at hkeeps
      cases hnew : result.1 with
      | forwarder new =>
          rw [hnew] at hkeeps
          obtain ⟨hnode, hdevice, hfresh⟩ := hkeeps
          exact ⟨new, N, rfl, fun hw => hnot (hfresh hw), hN, hnode.trans hholds.1,
            hdevice.trans hholds.2⟩
      | home new => rw [hnew] at hkeeps; exact hkeeps.elim
      | root new => rw [hnew] at hkeeps; exact hkeeps.elim
    · refine ⟨state, N, ?_, hnot, hN, hholds⟩
      rw [act_role result { t with pending := pending } hn rfl, if_neg hqp]
      exact hstate

/-- A forwarder that acts on the provision broadcast. -/
theorem opens (h : Provisioned root network t) {rest : List RtSiblEvent}
    {state : RtForwarderState} {event : RtSiblProvision}
    (hin : t.inbox p = .provision event :: rest) (hrole : t.role p = .forwarder state) :
    Provisioned root network
      (t.act p (((t.nodes p.1).pop p.2 rest).act p.2
        (.forwarder (Sibling.provisioned p.2 state event),
          [.wlEnableApMode (getNodeSubnet event.network p.2)]))
        [.wlEnableApMode (getNodeSubnet event.network p.2)]) := by
  have hN := h.provision p event (by rw [hin]; exact List.mem_cons_self)
  have hready := ready_pop t p rest
  have hnew := act_role (.forwarder (Sibling.provisioned p.2 state event),
    [.wlEnableApMode (getNodeSubnet event.network p.2)]) t hready rfl
  refine h.handles (handles_act _ t.pending (fun _ => id) hready
    (.inr ⟨.provision event, ?_, fun _ _ => rfl⟩) (by simp [RtAction.siblEvent])
    (by simp [RtAction.peerMessage])) ?_ ?_ ?_ ?_ ?_
  · rw [Node.pop_inbox_self, hin]
  · rw [hnew, if_pos rfl, hrole]
    exact trivial
  · rw [hnew, if_pos rfl]
    exact fun hf => by cases hf
  · intro new hstate
    rw [hnew, if_pos rfl] at hstate
    cases hstate
    exact .inr ⟨event.network, hN, rfl, rfl⟩
  · intro q hq
    exact act_ap_mono hq
  · intro q hq hap
    by_cases hqp : q = p
    · subst hqp
      rw [hnew, if_pos rfl]
      exact ⟨_, event.network, rfl, by simp [Sibling.provisioned], hN, rfl, rfl⟩
    · have hapq : t.ap q = true := by
        simp only [act] at hap
        split at hap
        · rwa [Function.update_of_ne hqp] at hap
        · exact hap
      obtain ⟨old, N, hold, hnot, hM, hholds⟩ := h.ap q hq hapq
      exact ⟨old, N, by rw [hnew, if_neg hqp]; exact hold, hnot, hM, hholds⟩

/-- The root's start. -/
theorem rootStarts (h : Provisioned root network t) {rest : List RtSiblEvent}
    {state : RtRootState} (hin : t.inbox p = .onStart :: rest) (hrole : t.role p = .root state) :
    p = (root, .center) ∧ t.network root = none ∧
      Provides t ((t.record p.1 (some state.network)).act p
        (((t.nodes p.1).pop p.2 rest).act p.2 (RtRole.ofRoot (Root.onStart p.2 state)))
        (Root.onStart p.2 state).2) p network := by
  have hcenter : p = (root, .center) := by
    obtain ⟨i, o⟩ := p
    by_cases ho : o = .center
    · subst ho
      by_cases hi : i = root
      · rw [hi]
      · obtain ⟨other, hother⟩ := h.kinds.homeCenter i hi
        rw [hrole] at hother
        cases hother
    · obtain ⟨other, hother⟩ := h.kinds.forwarder i o ho
      rw [hrole] at hother
      cases hother
  have hnet : state.network = network := by
    obtain ⟨other, hother, hnet⟩ := h.kinds.rootCenter
    rw [← hcenter, hrole] at hother
    cases hother
    exact hnet
  refine ⟨hcenter, ?_, ?_⟩
  · by_contra hroot
    apply h.started hroot
    rw [← hcenter, hin]
    exact List.mem_cons_self
  · subst hnet
    exact provides_act (RtRole.ofRoot (Root.onStart p.2 state)) t.pending
      ⟨BitVec.ofNat 16 Orientation.center.val, 1, state.network⟩ (fun _ => id) (ready_pop t p rest)
      (.inr ⟨.onStart, by rw [Node.pop_inbox_self, hin]⟩) rfl rfl rfl rfl

/-- A provisioning handshake. -/
theorem handshakeProvides (h : Provisioned root network t) {state : RtForwarderState}
    {event : RtPeerHandshake} (hrole : t.role p = .forwarder state)
    (hwithout : state.globalState = .withoutNetwork) (hin : t.inbox p = [])
    (hpend : (p, .handshake event) ∈ t.pending) :
    p.1 ≠ root ∧ t.network p.1 = none ∧ t.network root ≠ none ∧
      (∃ j o, t.Offers j o p.1 event.providedNetwork) ∧
      Provides t (((t.take p (.handshake event)).record p.1 (some event.providedNetwork)).act p
        ((t.nodes p.1).act p.2 (RtRole.ofForwarder (Peer.onHandshake p.2 state event)))
        (Peer.onHandshake p.2 state event).2) p event.providedNetwork := by
  have hfresh : (t.role p).fresh = true := by
    rw [hrole]
    simpa using hwithout
  have hnone : t.network p.1 = none := by
    by_contra hsome
    obtain ⟨e, he⟩ := h.awaits p hsome hfresh
    rw [hin] at he
    cases he
  have hroot : t.network root ≠ none := by
    intro hr
    rw [(h.early hr).2.2] at hpend
    cases hpend
  refine ⟨fun hp => ?_, hnone, hroot, h.handshake p event hpend hfresh, ?_⟩
  · rw [hp] at hnone
    exact hroot hnone
  · rw [Peer.onHandshake_fresh hwithout]
    refine provides_act (.forwarder (Peer.provisioned p.2 state event), _) _
      (Peer.provisionOf p.2 event) (fun m hm => List.mem_of_mem_erase hm)
      (ready_self t p) (.inl rfl) rfl ?_ ?_ ?_
    · simp [RtAction.siblEvent]
    · simp [RtAction.peerMessage]
    · simp [apEnabled, RtAction.enablesAp]

theorem sibl (h : Provisioned root network t) (hs : t.step (.sibl p) = some u) :
    Provisioned root network u := by
  obtain ⟨ev, rest, hin, ⟨state, hrole, rfl, rfl⟩ | ⟨result, hd, -, rfl, hcases⟩⟩ := sibl_cases hs
  · obtain ⟨hp, hnone, hprovides⟩ := h.rootStarts hin hrole
    have hp1 : p.1 = root := by rw [hp]
    have hnew := act_role (RtRole.ofRoot (Root.onStart p.2 state))
      (record t p.1 (some state.network)) (ready_pop t p rest) (record_nodes _ _ _) p
    rw [if_pos rfl] at hnew
    change Mesh.role (((t.record p.1 (some state.network)).act p
      (((t.nodes p.1).pop p.2 rest).act p.2 (RtRole.ofRoot (Root.onStart p.2 state)))
      (Root.onStart p.2 state).2)) p = _ at hnew
    refine h.provides hprovides (by rw [hp1]; exact hnone) ?_ ?_ ?_ (.inl ⟨hp1, rfl, ?_⟩)
    · rw [hnew, hrole]
      rfl
    · rw [hnew]
      rfl
    · intro other hother
      rw [hnew] at hother
      cases hother
    · rw [← hp, act_inbox_self, Node.pop_inbox_self]
      intro hstart
      apply h.onStart p
      rw [hin]
      exact hstart
  · rcases hcases with ⟨state, event, hrole, rfl, -, rfl⟩ | hord
    · exact h.opens hin hrole
    · refine h.ordinary result t.pending (fun _ => id) (ready_pop t p rest) hord
        (.inr ⟨ev, by rw [Node.pop_inbox_self, hin], ?_⟩)
      rintro event rfl
      exact dispatchSibl_provision_fresh hd

theorem peer (h : Provisioned root network t) {ev : RtPeerEvent}
    (hs : t.step (.peer p ev) = some u) : Provisioned root network u := by
  obtain ⟨hpend, hin, ⟨state, event, hrole, hwithout, rfl, rfl⟩ | ⟨result, -, -, rfl, hord⟩⟩ :=
    peer_cases hs
  · obtain ⟨hne, hnone, hroot, offer, hprovides⟩ :=
      h.handshakeProvides hrole hwithout hin hpend
    have hnew := act_role_self ((t.take p (.handshake event)).record p.1
      (some event.providedNetwork)) p (t.nodes p.1)
      (RtRole.ofForwarder (Peer.onHandshake p.2 state event))
    change Mesh.role _ p = .forwarder (Peer.onHandshake p.2 state event).1 at hnew
    rw [Peer.onHandshake_fresh hwithout] at hprovides hnew ⊢
    refine h.provides hprovides hnone ?_ ?_ ?_ (.inr ⟨hne, hroot, offer⟩)
    · rw [hrole]
      exact hnew ▸ trivial
    · exact hnew ▸ rfl
    · intro other hother
      have heq := hnew.symm.trans hother
      cases heq
      exact ⟨rfl, rfl⟩
  · exact h.ordinary result _ (fun m hm => List.mem_of_mem_erase hm) (ready_self t p) hord
      (.inl rfl)

theorem step (h : Provisioned root network t) {l : MeshLabel ι} (links : t.linksAp l = true)
    (hs : (meshMachine ι).step t l = some u) : Provisioned root network u := by
  cases l with
  | connect p q connection =>
      obtain ⟨hpq, hp, hq, rfl⟩ := step_connect hs
      exact h.connect hpq hp hq links
  | disconnect p connection =>
      obtain ⟨q, hq, rfl⟩ := step_disconnect hs
      exact h.disconnect hq
  | sibl p => exact h.sibl hs
  | peer p ev => exact h.peer hs
  | lose p ev =>
      obtain ⟨-, -, rfl⟩ := step_lose hs
      exact h.take ev
  | tick i dtMs =>
      cases hs
      exact h.ordinary (rtOnTick (t.role (i, .center)) dtMs) t.pending (fun _ => id)
        (ready_self t (i, .center)) (rtOnTick_ordinary _ dtMs) (.inl rfl)

theorem run {guard : Mesh ι → MeshLabel ι → Prop}
    (hrun : (meshMachine ι).Executes guard (Mesh.start root network) t)
    (links : ∀ t l, guard t l → t.linksAp l = true) : Provisioned root network t :=
  hrun.invariant (.start root network) fun _ _ _ inv hg hs => inv.step (links _ _ hg) hs

end Provisioned

end Mesh

end I4A
