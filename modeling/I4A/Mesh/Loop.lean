import I4A.Core.Walk
import I4A.Mesh.Provisioning

/-! # Default gateways

A node's default gateway names the board it was provisioned through; the node
linked there was provisioned earlier. What can break this is a route to 0/0
written by a node that has its network already, and a link of that board to a
later node. As long as neither happens no gateway election ever starts, and the
gateways lead to the root.
-/

namespace I4A

open Forwarder StateTransition

namespace Mesh

variable {ι : Type*}

/-- Node `j` was provisioned before node `i`. -/
def earlier (t : Mesh ι) (j i : ι) : Bool := (t.network j).isSome && t.rank j < t.rank i

/-- The board that a default gateway names is linked only to an earlier node. -/
def linksEarlier (t : Mesh ι) : MeshLabel ι → Bool
  | .connect p q _ =>
      (t.gateway p.1 ≠ p.2.output || t.earlier q.1 p.1) &&
        (t.gateway q.1 ≠ q.2.output || t.earlier p.1 q.1)
  | _ => true

/-- No board with a network writes a route to 0/0, not even one that the default gateway names
already. -/
def keepsDefault (t : Mesh ι) : MeshLabel ι → Bool
  | .peer p ev =>
      match t.role p with
      | .forwarder state => !Peer.redirects state ev
      | _ => true
  | _ => true

/-- The node linked to the board that the default gateway names. -/
def nextGateway (t : Mesh ι) (i : ι) : Option ι :=
  (Orientation.ofOutput (t.gateway i)).bind fun o => (t.link (i, o)).map Prod.fst

/-- The root's node delivers to its center, and no walk along the gateways meets a node twice. -/
structure LoopFree (root : ι) (t : Mesh ι) : Prop where
  root : t.network root ≠ none → t.gateway root = Orientation.center.output
  walk : ∀ i, t.network i ≠ none → NeverRevisits t.nextGateway i

end Mesh

/-! ## The invariant -/

/-- The sibling events of a node that takes part in no election. -/
def RtSiblEvent.calm : RtSiblEvent → Bool
  | .onStart => true
  | .provision _ => true
  | .sendNewGatewayRequest event => event.hagNetworks = HagNetworks.empty
  | _ => false

/-- No gateway request is stored in front of the provision. -/
def readsProvision : List RtSiblEvent → Bool
  | [] => true
  | .onStart :: rest => readsProvision rest
  | .provision _ :: _ => true
  | _ :: _ => false

theorem readsProvision_append {l answers : List RtSiblEvent} {event : RtSiblProvision}
    (h : readsProvision l = true) (hin : .provision event ∈ l) :
    readsProvision (l ++ answers) = true := by
  induction l with
  | nil => cases hin
  | cons ev rest ih =>
      cases ev with
      | onStart =>
          rcases List.mem_cons.mp hin with heq | hrest
          · cases heq
          · exact ih h hrest
      | provision _ => rfl
      | _ => cases h

theorem readsProvision_of_starts {l : List RtSiblEvent}
    (h : ∀ ev ∈ l, ev = .onStart ∨ ∃ event, ev = .provision event) : readsProvision l = true := by
  induction l with
  | nil => rfl
  | cons ev rest ih =>
      rcases h ev List.mem_cons_self with rfl | ⟨event, rfl⟩
      · exact ih fun ev' hev' => h ev' (List.mem_cons_of_mem _ hev')
      · rfl

namespace Mesh

structure Gateways (root : ι) (t : Mesh ι) : Prop where
  addr : ∀ i N, t.network i = some N → N.addr ≠ 0
  settled : ∀ p state, t.role p = .forwarder state → state.globalState ≠ .withoutNetwork →
    t.network p.1 = some state.nodeNetwork
  localRoot : ∀ p state, t.role p = .forwarder state → state.isLocalRoot = true →
    p.1 ≠ root ∧ state.globalState ≠ .withoutNetwork
  idle : ∀ p state, t.role p = .root state → state.gatewayRequested = false
  calm : ∀ p, ∀ ev ∈ t.inbox p, ev.calm = true
  requests : ∀ p event, .sendNewGatewayRequest event ∈ t.inbox p →
    p.1 ≠ root ∧ t.network p.1 ≠ none
  first : ∀ p, (t.role p).fresh = true → readsProvision (t.inbox p) = true
  pending : ∀ m ∈ t.pending, m.2.calm = true
  unset : ∀ i, t.network i = none → t.gateway i = Orientation.center.output
  rootGateway : t.gateway root = Orientation.center.output
  gateway : ∀ i, t.network i ≠ none → i ≠ root → ∃ a, a ≠ .center ∧ t.gateway i = a.output ∧
    ∀ q, t.link (i, a) = some q → t.earlier q.1 i = true

variable {root : ι} {network : Network} {t u : Mesh ι} {p : Port ι}

/-- Along the invariant every hop goes to an earlier node. -/
theorem Gateways.loopFree (h : Gateways root t) (prov : Provisioned root network t) :
    LoopFree root t := by
  refine ⟨fun _ => h.rootGateway, fun i _ => neverRevisits_of_rank t.rank fun a b hab => ?_⟩
  simp only [nextGateway, Option.bind_eq_some_iff, Option.map_eq_some_iff] at hab
  obtain ⟨o, ho, q, hlink, rfl⟩ := hab
  have hcenter := prov.linkForwarder (a, o) q hlink
  have hne : t.gateway a ≠ Orientation.center.output := by
    intro hgw
    rw [hgw, Orientation.ofOutput_output] at ho
    cases ho
    exact hcenter rfl
  have hnet : t.network a ≠ none := fun hnone => hne (h.unset a hnone)
  have hroot : a ≠ root := by
    rintro rfl
    exact hne h.rootGateway
  obtain ⟨o', -, hgw, hearlier⟩ := h.gateway a hnet hroot
  rw [hgw, Orientation.ofOutput_output] at ho
  cases ho
  have hq := hearlier q hlink
  simp only [earlier, Bool.and_eq_true, decide_eq_true_eq] at hq
  exact hq.2

/-- A node without network has handled nothing but starts. -/
theorem Gateways.onlyStart (h : Gateways root t) (prov : Provisioned root network t)
    (hnone : t.network p.1 = none) (ev : RtSiblEvent) (hev : ev ∈ t.inbox p) :
    ev = .onStart := by
  have hcalm := h.calm p ev hev
  cases ev with
  | onStart => rfl
  | provision event =>
      have hsome := prov.provision p event hev
      rw [hnone] at hsome
      cases hsome
  | sendNewGatewayRequest event => exact absurd hnone (h.requests p event hev).2
  | _ => cases hcalm

/-- A role that the board may take on. -/
structure Fits (root : ι) (t : Mesh ι) (p : Port ι) (role : RtRole) : Prop where
  settled : ∀ state, role = .forwarder state → state.globalState ≠ .withoutNetwork →
    t.network p.1 = some state.nodeNetwork
  localRoot : ∀ state, role = .forwarder state → state.isLocalRoot = true →
    p.1 ≠ root ∧ state.globalState ≠ .withoutNetwork
  idle : ∀ state, role = .root state → state.gatewayRequested = false

theorem Gateways.fits (h : Gateways root t) {role : RtRole} (hrole : t.role p = role) :
    Fits root t p role := by
  subst hrole
  exact ⟨h.settled p, h.localRoot p, h.idle p⟩

theorem Fits.home (state : RtHomeState) : Fits root t p (.home state) := by
  constructor
  · intro other h
    cases h
  · intro other h
    cases h
  · intro other h
    cases h

theorem Fits.forwarder {state : RtForwarderState}
    (settled : state.globalState ≠ .withoutNetwork → t.network p.1 = some state.nodeNetwork)
    (localRoot : state.isLocalRoot = true → p.1 ≠ root ∧ state.globalState ≠ .withoutNetwork) :
    Fits root t p (.forwarder state) := by
  constructor
  · intro other h
    cases h
    exact settled
  · intro other h
    cases h
    exact localRoot
  · intro other h
    cases h

variable [DecidableEq ι]

theorem start_gateway (root : ι) (network : Network) (i : ι) :
    (Mesh.start root network).gateway i = Orientation.center.output := by
  change ((Mesh.start root network).nodes i).table.defaultGateway = _
  by_cases hi : i = root
  · rw [hi, start_nodes_root]
    rfl
  · rw [start_nodes_of_ne network hi]
    rfl

theorem Gateways.start (root : ι) (network : Network) :
    Gateways root (Mesh.start root network) := by
  have hrole : ∀ p state, (Mesh.start root network).role p = .forwarder state →
      state = createForwarderCore := by
    intro p state hstate
    rw [start_forwarder root network ((start_kinds root network).ne_center hstate)] at hstate
    cases hstate
    rfl
  constructor
  case addr => exact fun i N h => by cases h
  case settled =>
    intro p state hstate hnot
    rw [hrole p state hstate] at hnot
    exact absurd rfl hnot
  case localRoot =>
    intro p state hstate hroot
    rw [hrole p state hstate] at hroot
    cases hroot
  case idle =>
    intro p state hstate
    rw [start_role] at hstate
    obtain ⟨i, o⟩ := p
    split at hstate
    · cases o with
      | center =>
          cases hstate
          rfl
      | _ => cases hstate
    · cases o <;> cases hstate
  case calm =>
    intro p ev hev
    rw [start_inbox, List.mem_singleton] at hev
    rw [hev]
    rfl
  case requests =>
    intro p event hin
    rw [start_inbox, List.mem_singleton] at hin
    cases hin
  case first =>
    intro p _
    rw [start_inbox]
    rfl
  case pending => exact fun m hm => by cases hm
  case unset => exact fun i _ => start_gateway root network i
  case rootGateway => exact start_gateway root network root
  case gateway => exact fun i h => absurd rfl h

/-! ## One handled event -/

/-- An event by which a board redirects nothing, and broadcasts at most the gateway request of
a lost link. -/
theorem Gateways.act (h : Gateways root t) (prov : Provisioned root network t) {n : Node}
    (result : RtRole × List RtAction) (pending : List (Port ι × RtPeerEvent))
    (hsub : ∀ m ∈ pending, m ∈ t.pending) (hn : t.Ready p n)
    (hrest : ∀ ev ∈ n.inbox p.2, ev ∈ t.inbox p)
    (gateway : gatewayAfter (t.gateway p.1) result.2 = t.gateway p.1)
    (fits : Fits root t p result.1)
    (answer : ∀ ev ∈ siblEvents result.2, ev = .sendNewGatewayRequest ⟨HagNetworks.empty⟩ ∧
      p.1 ≠ root ∧ t.network p.1 ≠ none)
    (first : result.1.fresh = true → readsProvision (n.inbox p.2) = true)
    (messages : ∀ m ∈ peerMessages result.2, m.calm = true) :
    Gateways root ({ t with pending := pending }.act p (n.act p.2 result) result.2) := by
  have hrole := act_role result { t with pending := pending } hn rfl
  have hinbox := act_inbox result { t with pending := pending } hn rfl
  have hgateway : ∀ i, ({ t with pending := pending }.act p (n.act p.2 result)
      result.2).gateway i = t.gateway i := by
    intro i
    rw [act_gateway result { t with pending := pending } hn rfl, gateway]
    split
    · next hi => rw [hi]
    · rfl
  have hheard : ∀ q ev, ev ∈ ({ t with pending := pending }.act p (n.act p.2 result)
      result.2).inbox q → ev ∈ t.inbox q ∨
        (ev = .sendNewGatewayRequest ⟨HagNetworks.empty⟩ ∧ q.1 ≠ root ∧ t.network q.1 ≠ none) := by
    intro q ev hev
    rw [hinbox] at hev
    by_cases hqp : q = p
    · subst hqp
      rw [if_pos rfl] at hev
      exact .inl (hrest ev hev)
    · rw [if_neg hqp] at hev
      split at hev
      · next hnode =>
        rw [hnode]
        exact (List.mem_append.mp hev).imp id (answer ev)
      · exact .inl hev
  constructor
  case addr => exact h.addr
  case settled =>
    intro q state hstate hnot
    rw [hrole] at hstate
    split at hstate
    · next hqp =>
      rw [hqp]
      exact fits.settled state hstate hnot
    · exact h.settled q state hstate hnot
  case localRoot =>
    intro q state hstate hroot
    rw [hrole] at hstate
    split at hstate
    · next hqp =>
      rw [hqp]
      exact fits.localRoot state hstate hroot
    · exact h.localRoot q state hstate hroot
  case idle =>
    intro q state hstate
    rw [hrole] at hstate
    split at hstate
    · exact fits.idle state hstate
    · exact h.idle q state hstate
  case calm =>
    intro q ev hev
    rcases hheard q ev hev with hold | ⟨rfl, -⟩
    · exact h.calm q ev hold
    · exact decide_eq_true (rfl : HagNetworks.empty = HagNetworks.empty)
  case requests =>
    intro q event hev
    rcases hheard q _ hev with hold | ⟨-, hq⟩
    · exact h.requests q event hold
    · exact hq
  case first =>
    intro q hf
    rw [hrole] at hf
    rw [hinbox]
    by_cases hqp : q = p
    · rw [if_pos hqp] at hf ⊢
      exact first hf
    · rw [if_neg hqp] at hf ⊢
      split
      · next hnode =>
        cases hsibl : siblEvents result.2 with
        | nil =>
            rw [List.append_nil]
            exact h.first q hf
        | cons ev rest =>
            -- whoever is asked for a gateway has its provision in front of the request
            obtain ⟨-, -, hnet⟩ := answer ev (by rw [hsibl]; exact List.mem_cons_self)
            rw [← hnode] at hnet
            obtain ⟨event, hin⟩ := prov.awaits q hnet hf
            exact readsProvision_append (h.first q hf) hin
      · exact h.first q hf
  case pending =>
    intro m hm
    rcases mem_act_pending result pending hm with hold | ⟨-, hsent⟩
    · exact h.pending m (hsub m hold)
    · exact messages m.2 hsent
  case unset =>
    intro i hi
    rw [hgateway]
    exact h.unset i hi
  case rootGateway =>
    rw [hgateway]
    exact h.rootGateway
  case gateway =>
    intro i hi hroot
    rw [hgateway]
    exact h.gateway i hi hroot

/-- An event by which a board does nothing but take on a role. -/
theorem Gateways.silent (h : Gateways root t) (prov : Provisioned root network t) {n : Node}
    {role : RtRole} {pending : List (Port ι × RtPeerEvent)}
    (hsub : ∀ m ∈ pending, m ∈ t.pending) (hn : t.Ready p n)
    (hrest : ∀ ev ∈ n.inbox p.2, ev ∈ t.inbox p) (fits : Fits root t p role)
    (first : role.fresh = true → readsProvision (n.inbox p.2) = true) :
    Gateways root ({ t with pending := pending }.act p (n.act p.2 (role, [])) []) := by
  refine h.act prov (role, []) pending hsub hn hrest rfl fits ?_ first ?_
  · intro ev hev
    cases hev
  · intro m hm
    cases hm

theorem Provides.earlier {N : Network} (hs : Provides t u p N) (hnone : t.network p.1 = none)
    {i j : ι} (hi : i ≠ p.1) (hji : t.earlier j i = true) : u.earlier j i = true := by
  simp only [Mesh.earlier, Bool.and_eq_true, decide_eq_true_eq, Option.isSome_iff_ne_none]
    at hji ⊢
  obtain ⟨M, hM⟩ := Option.ne_none_iff_exists'.mp hji.1
  rw [hs.network_of_some hnone hM, hs.rank_of_ne_none hnone hji.1, hs.rank,
    Function.update_of_ne hi]
  exact ⟨Option.some_ne_none M, hji.2⟩

/-- The other end of the link is an access point, so its node was there first. -/
theorem Provides.linkEarlier {N : Network} (hs : Provides t u p N)
    (prov : Provisioned root network t) (hnone : t.network p.1 = none)
    (hfresh : (t.role p).fresh = true) {q : Port ι} (hlink : t.link p = some q) :
    u.earlier q.1 p.1 = true := by
  have hlink' := prov.linkSymm p q hlink
  have hap := (prov.linkFresh q p hlink' hfresh).1
  have hnet := prov.ap_network (prov.linkForwarder q p hlink') hap
  have hq : q.1 ≠ p.1 := by
    intro hq
    rw [hq] at hnet
    exact hnet hnone
  have hclock := prov.clock q.1 hnet
  simp only [Mesh.earlier, Bool.and_eq_true, decide_eq_true_eq]
  rw [hs.network, hs.rank, Function.update_of_ne hq, Function.update_of_ne hq,
    Function.update_self]
  exact ⟨Option.isSome_iff_ne_none.mpr hnet, hclock⟩

/-- An event by which the board provisions its node and becomes its gateway. -/
theorem Gateways.provides (h : Gateways root t) (prov : Provisioned root network t) {N : Network}
    (hs : Provides t u p N) (hnone : t.network p.1 = none) (haddr : N.addr ≠ 0)
    (gateway : ∀ i, u.gateway i = if i = p.1 then p.2.output else t.gateway i)
    (origin : (p = (root, .center) ∧ ∃ state, u.role p = .root state ∧
        state.gatewayRequested = false) ∨
      (p.1 ≠ root ∧ (t.role p).fresh = true ∧ p.2 ≠ .center ∧
        ∃ state, u.role p = .forwarder state ∧ state.nodeNetwork = N ∧
          state.globalState ≠ .withoutNetwork)) :
    Gateways root u := by
  have hnetwork : ∀ i, u.network i = if i = p.1 then some N else t.network i := by
    intro i
    rw [hs.network, Function.update_apply]
  have hnotFresh : (u.role p).fresh = false := by
    rcases origin with ⟨-, state, hstate, -⟩ | ⟨-, -, -, state, hstate, -, hnot⟩
    · rw [hstate]
      rfl
    · rw [hstate]
      simpa [RtRole.fresh] using hnot
  have hforwarder : ∀ state, u.role p = .forwarder state →
      p.1 ≠ root ∧ state.nodeNetwork = N ∧ state.globalState ≠ .withoutNetwork := by
    intro state hstate
    rcases origin with ⟨-, other, hother, -⟩ | ⟨hne, -, -, other, hother, hN, hnot⟩
    · rw [hother] at hstate
      cases hstate
    · rw [hother] at hstate
      cases hstate
      exact ⟨hne, hN, hnot⟩
  constructor
  case addr =>
    intro i M hM
    rw [hnetwork] at hM
    split at hM
    · cases hM
      exact haddr
    · exact h.addr i M hM
  case settled =>
    intro q state hstate hnot
    rw [hnetwork]
    by_cases hqp : q = p
    · subst hqp
      rw [if_pos rfl, (hforwarder state hstate).2.1]
    · rw [hs.role q hqp] at hstate
      have hold := h.settled q state hstate hnot
      rwa [if_neg]
      intro hq
      rw [hq, hnone] at hold
      cases hold
  case localRoot =>
    intro q state hstate hlocal
    by_cases hqp : q = p
    · subst hqp
      obtain ⟨hne, -, hnot⟩ := hforwarder state hstate
      exact ⟨hne, hnot⟩
    · rw [hs.role q hqp] at hstate
      exact h.localRoot q state hstate hlocal
  case idle =>
    intro q state hstate
    by_cases hqp : q = p
    · subst hqp
      rcases origin with ⟨-, other, hother, hidle⟩ | ⟨-, -, -, other, hother, -⟩
      · rw [hother] at hstate
        cases hstate
        exact hidle
      · rw [hother] at hstate
        cases hstate
    · rw [hs.role q hqp] at hstate
      exact h.idle q state hstate
  case calm =>
    intro q ev hev
    rcases hs.heard q ev hev with hold | ⟨-, event, rfl, -⟩
    · exact h.calm q ev hold
    · rfl
  case requests =>
    intro q request hev
    rw [hnetwork]
    rcases hs.heard q _ hev with hold | ⟨-, event, hnew, -⟩
    · obtain ⟨hne, hnet⟩ := h.requests q request hold
      refine ⟨hne, ?_⟩
      split
      · exact Option.some_ne_none _
      · exact hnet
    · cases hnew
  case first =>
    intro q hf
    have hqp : q ≠ p := by
      rintro rfl
      rw [hnotFresh] at hf
      cases hf
    rw [hs.role q hqp] at hf
    by_cases hnode : q.1 = p.1
    · have hq : t.network q.1 = none := by rw [hnode, hnone]
      refine readsProvision_of_starts fun ev hev => ?_
      rcases hs.heard q ev hev with hold | ⟨-, event, rfl, -⟩
      · exact .inl (h.onlyStart prov hq ev hold)
      · exact .inr ⟨event, rfl⟩
    · rw [hs.elsewhere q hnode]
      exact h.first q hf
  case pending => exact fun m hm => h.pending m (hs.pending m hm)
  case unset =>
    intro i hi
    rw [hnetwork] at hi
    rw [gateway]
    split at hi
    · cases hi
    · next hne =>
      rw [if_neg hne]
      exact h.unset i hi
  case rootGateway =>
    rw [gateway]
    rcases origin with ⟨hp, -⟩ | ⟨hne, -⟩
    · rw [hp, if_pos rfl]
    · rw [if_neg (Ne.symm hne)]
      exact h.rootGateway
  case gateway =>
    intro i hi hne
    rw [hs.link, gateway]
    by_cases hip : i = p.1
    · subst hip
      rw [if_pos rfl]
      rcases origin with ⟨hp, -⟩ | ⟨-, hfresh, hcenter, -⟩
      · rw [hp] at hne
        exact absurd rfl hne
      · exact ⟨p.2, hcenter, rfl, fun q hlink => hs.linkEarlier prov hnone hfresh hlink⟩
    · rw [hnetwork, if_neg hip] at hi
      rw [if_neg hip]
      obtain ⟨a, ha, hgw, hearly⟩ := h.gateway i hi hne
      exact ⟨a, ha, hgw, fun q hlink => hs.earlier hnone hip (hearly q hlink)⟩

/-! ## One step -/

theorem Gateways.connect (h : Gateways root t) {q : Port ι} {connection : Network} (hpq : p ≠ q)
    (earlier : t.linksEarlier (.connect p q connection) = true) :
    Gateways root (t.connect p q connection) := by
  simp only [linksEarlier, Bool.and_eq_true, Bool.or_eq_true, decide_eq_true_eq] at earlier
  obtain ⟨hp, hq⟩ := earlier
  constructor
  case addr => exact h.addr
  case settled => exact h.settled
  case localRoot => exact h.localRoot
  case idle => exact h.idle
  case calm => exact h.calm
  case requests => exact h.requests
  case first => exact h.first
  case pending =>
    intro m hm
    rcases List.mem_append.mp hm with hold | hnew
    · exact h.pending m hold
    · rcases List.mem_pair.mp hnew with rfl | rfl <;> rfl
  case unset => exact h.unset
  case rootGateway => exact h.rootGateway
  case gateway =>
    intro i hi hne
    obtain ⟨a, ha, hgw, hearly⟩ := h.gateway i hi hne
    refine ⟨a, ha, hgw, fun b hlink => ?_⟩
    rw [connect_link hpq] at hlink
    rcases hlink with ⟨rfl, rfl⟩ | ⟨rfl, rfl⟩ | ⟨-, -, hlink⟩
    · exact hp.resolve_left fun hn => hn hgw
    · exact hq.resolve_left fun hn => hn hgw
    · exact hearly b hlink

theorem Gateways.disconnect (h : Gateways root t) (q : Port ι) (connection : Network) :
    Gateways root (t.disconnect p q connection) := by
  constructor
  case addr => exact h.addr
  case settled => exact h.settled
  case localRoot => exact h.localRoot
  case idle => exact h.idle
  case calm => exact h.calm
  case requests => exact h.requests
  case first => exact h.first
  case pending =>
    intro m hm
    rcases List.mem_append.mp hm with hold | hnew
    · exact h.pending m hold
    · rcases List.mem_pair.mp hnew with rfl | rfl <;> rfl
  case unset => exact h.unset
  case rootGateway => exact h.rootGateway
  case gateway =>
    intro i hi hne
    obtain ⟨a, ha, hgw, hearly⟩ := h.gateway i hi hne
    exact ⟨a, ha, hgw, fun b hlink => hearly b (disconnect_link hlink).2.2⟩

theorem Gateways.take (h : Gateways root t) (ev : RtPeerEvent) : Gateways root (t.take p ev) where
  addr := h.addr
  settled := h.settled
  localRoot := h.localRoot
  idle := h.idle
  calm := h.calm
  requests := h.requests
  first := h.first
  pending m hm := h.pending m (List.mem_of_mem_erase hm)
  unset := h.unset
  rootGateway := h.rootGateway
  gateway := h.gateway

/-- The request a lost link's siblings send on names their network, with free slots behind it. -/
theorem request_calm {N : Network} (haddr : N.addr ≠ 0) {i : Nat}
    (hi : findFreeSpot HagNetworks.empty = some i) :
    (RtPeerEvent.newGatewayRequest ⟨HagNetworks.empty.setIfInBounds i N⟩).calm = true := by
  have hzero : i = 0 := by
    have hfirst : findFreeSpot HagNetworks.empty = some 0 := by decide
    rw [hfirst] at hi
    exact (Option.some.inj hi).symm
  subst hzero
  have hhead : (HagNetworks.empty.setIfInBounds 0 N)[0] = N := by simp
  have hfree : (HagNetworks.empty.setIfInBounds 0 N)[1] = Network.zero := by
    simp [HagNetworks.empty, maxHagNetworks]
  have hmem : (HagNetworks.empty.setIfInBounds 0 N)[1] ∈ HagNetworks.empty.setIfInBounds 0 N :=
    Vector.getElem_mem (by decide)
  rw [hfree, ← Vector.mem_toList_iff] at hmem
  simp only [RtPeerEvent.calm, decide_eq_true_eq]
  exact ⟨by rw [hhead]; exact haddr, hmem⟩

/-- A forwarder handles a sibling event. -/
theorem Gateways.siblForwarder (h : Gateways root t) (prov : Provisioned root network t)
    {ev : RtSiblEvent} {rest : List RtSiblEvent} {state : RtForwarderState}
    {result : RtRole × List RtAction} (hin : t.inbox p = ev :: rest)
    (hrole : t.role p = .forwarder state)
    (hd : dispatchSibl p.2 (.forwarder state) ev = some result) :
    Gateways root (t.act p (((t.nodes p.1).pop p.2 rest).act p.2 result) result.2) := by
  have hready := ready_pop t p rest
  have hrest : ∀ e ∈ ((t.nodes p.1).pop p.2 rest).inbox p.2, e ∈ t.inbox p := by
    intro e he
    exact Node.mem_of_mem_pop hin he
  have hmem : ev ∈ t.inbox p := by
    rw [hin]
    exact List.mem_cons_self
  have hfirst := h.first p
  rw [hrole, hin] at hfirst
  have hfits := h.fits hrole
  -- an event that changes nothing on a board that may go on being fresh
  have hskip : result = (.forwarder state, []) →
      (state.globalState = .withoutNetwork → readsProvision rest = true) →
      Gateways root (t.act p (((t.nodes p.1).pop p.2 rest).act p.2 result) result.2) := by
    intro hresult hreads
    rw [hresult]
    refine h.silent prov (fun _ => id) hready hrest hfits ?_
    rw [Node.pop_inbox_self]
    intro hf
    exact hreads (by simpa using hf)
  cases ev with
  | onStart =>
      cases hd
      exact hskip rfl fun hw => hfirst (by simpa using hw)
  | provision event =>
      by_cases hwith : state.globalState = .withNetwork
      · refine hskip ?_ (fun hw => by rw [hwith] at hw; cases hw)
        cases hd
        simp only [RtRole.ofForwarder, Sibling.onProvision, if_pos hwith]
      · have hN := prov.provision p event hmem
        cases hd
        simp only [RtRole.ofForwarder, Sibling.onProvision, if_neg hwith]
        refine h.act prov _ t.pending (fun _ => id) hready hrest rfl (.forwarder ?_ ?_)
          (by simp [RtAction.siblEvent]) ?_ (by simp [RtAction.peerMessage])
        · intro _
          exact hN
        · intro hlocal
          cases hlocal
        · intro hf
          cases hf
  | sendNewGatewayRequest event =>
      -- the provision was in front of the request, so the board has its network
      have hnot : state.globalState ≠ .withoutNetwork := by
        intro hw
        have hfalse := hfirst (by simpa using hw)
        cases hfalse
      have hsettled := h.settled p state hrole hnot
      have hempty : event.hagNetworks = HagNetworks.empty := by
        simpa [RtSiblEvent.calm] using h.calm p _ hmem
      cases hd
      simp only [RtRole.ofForwarder, Sibling.onSendNewGatewayRequest]
      have hsame : Gateways root (t.act p
          (((t.nodes p.1).pop p.2 rest).act p.2 (.forwarder state, [])) []) := by
        refine h.silent prov (fun _ => id) hready hrest hfits ?_
        intro hf
        exact absurd (by simpa using hf) hnot
      split
      · exact hsame
      · split
        · exact hsame
        · split
          · exact hsame
          · split
            · exact hsame
            · next i hi =>
              rw [hempty] at hi
              refine h.act prov _ t.pending (fun _ => id) hready hrest rfl (.forwarder ?_ ?_)
                (by simp [RtAction.siblEvent]) ?_ ?_
              · intro _
                exact hsettled
              · intro hlocal
                exact ⟨(h.localRoot p state hrole hlocal).1, by simp⟩
              · intro hf
                cases hf
              · intro m hm
                simp only [peerMessages_cons, peerMessages_nil, RtAction.peerMessage,
                  Option.toList_some, List.append_nil, List.mem_singleton] at hm
                rw [hm, hempty]
                exact request_calm (h.addr p.1 _ hsettled) hi
  | updateDtr event => cases h.calm p _ hmem
  | newGatewayWinner event => cases h.calm p _ hmem
  | unknown id => cases hd

/-- A home board handles a sibling event. -/
theorem Gateways.siblHome (h : Gateways root t) (prov : Provisioned root network t)
    {ev : RtSiblEvent} {rest : List RtSiblEvent} {state : RtHomeState}
    {result : RtRole × List RtAction} (hin : t.inbox p = ev :: rest)
    (hd : dispatchSibl p.2 (.home state) ev = some result) :
    Gateways root (t.act p (((t.nodes p.1).pop p.2 rest).act p.2 result) result.2) := by
  obtain ⟨hsilent, hgateway⟩ := sibl_silent (.inl ⟨state, rfl⟩) hd
  obtain ⟨state', hstate'⟩ := hearRole_home p.2 state ev
  have hrole : result.1 = .home state' := (hear_kind hd).trans hstate'
  refine h.act prov result t.pending (fun _ => id) (ready_pop t p rest) ?_ (hgateway _) ?_ ?_ ?_
    ?_
  · intro e he
    exact Node.mem_of_mem_pop hin he
  · rw [hrole]
    exact .home state'
  · rw [hsilent]
    simp
  · rw [hrole]
    intro hf
    cases hf
  · have hnone : peerMessages result.2 = [] := by
      cases ev with
      | provision event =>
          cases hd
          simp only [RtRole.ofHome, Home.onProvision]
          split <;> rfl
      | unknown id => cases hd
      | _ =>
          cases hd
          rfl
    rw [hnone]
    simp

/-- The root's center handles a sibling event other than its start. -/
theorem Gateways.siblRoot (h : Gateways root t) (prov : Provisioned root network t)
    {ev : RtSiblEvent} {rest : List RtSiblEvent} {state : RtRootState}
    {result : RtRole × List RtAction} (hin : t.inbox p = ev :: rest)
    (hrole : t.role p = .root state) (hroot : p.1 = root) (hstart : ev ≠ .onStart)
    (hd : dispatchSibl p.2 (.root state) ev = some result) :
    Gateways root (t.act p (((t.nodes p.1).pop p.2 rest).act p.2 result) result.2) := by
  have hmem : ev ∈ t.inbox p := by
    rw [hin]
    exact List.mem_cons_self
  have hcalm := h.calm p ev hmem
  cases ev with
  | onStart => exact absurd rfl hstart
  | provision event =>
      cases hd
      refine h.silent prov (fun _ => id) (ready_pop t p rest) ?_ (h.fits hrole) ?_
      · intro e he
        exact Node.mem_of_mem_pop hin he
      · intro hf
        cases hf
  | sendNewGatewayRequest event => exact absurd hroot (h.requests p event hmem).1
  | unknown id => cases hd
  | _ => cases hcalm

theorem Gateways.sibl (h : Gateways root t) (prov : Provisioned root network t)
    (addr : network.addr ≠ 0) (hs : t.step (.sibl p) = some u) : Gateways root u := by
  obtain ⟨ev, rest, hin, ⟨state, hrole, rfl, rfl⟩ | ⟨result, hd, hstart, rfl, -⟩⟩ := sibl_cases hs
  · obtain ⟨hp, hnone, hprovides⟩ := prov.rootStarts hin hrole
    refine h.provides prov hprovides (by rw [hp]; exact hnone) addr
      (fun i => ?_) (.inl ⟨hp, state, ?_, h.idle p state hrole⟩)
    · exact act_gateway (RtRole.ofRoot (Root.onStart p.2 state))
        (record t p.1 (some state.network)) (ready_pop t p rest) (record_nodes _ _ _) i
    · exact act_role_self _ p _ (RtRole.ofRoot (Root.onStart p.2 state))
  · cases hrole : t.role p with
    | forwarder state =>
        rw [hrole] at hd
        exact h.siblForwarder prov hin hrole hd
    | home state =>
        rw [hrole] at hd
        exact h.siblHome prov hin hd
    | root state =>
        rw [hrole] at hd
        have hroot : p.1 = root := by
          obtain ⟨i, o⟩ := p
          by_contra hi
          by_cases ho : o = .center
          · subst ho
            obtain ⟨other, hother⟩ := prov.kinds.homeCenter i hi
            rw [hrole] at hother
            cases hother
          · obtain ⟨other, hother⟩ := prov.kinds.forwarder i o ho
            rw [hrole] at hother
            cases hother
        refine h.siblRoot prov hin hrole hroot ?_ hd
        rintro rfl
        rw [hrole] at hstart
        cases hstart

/-- A forwarder with a network, or a board in the center, handles a peer event. -/
theorem Gateways.peerOrdinary (h : Gateways root t) (prov : Provisioned root network t)
    {ev : RtPeerEvent} {result : RtRole × List RtAction} (hpend : (p, ev) ∈ t.pending)
    (hd : dispatchPeer p.2 (t.role p) ev = some result)
    (hnone : (t.role p).provisionedBy ev = none)
    (keeps : t.keepsDefault (.peer p ev) = true) :
    Gateways root ((t.take p ev).act p ((t.nodes p.1).act p.2 result) result.2) := by
  have hsub : ∀ m ∈ t.pending.erase (p, ev), m ∈ t.pending := fun m hm => List.mem_of_mem_erase hm
  have hcalm := h.pending _ hpend
  have hact : ∀ result' : RtRole × List RtAction,
      gatewayAfter (t.gateway p.1) result'.2 = t.gateway p.1 → Fits root t p result'.1 →
      (∀ e ∈ siblEvents result'.2, e = .sendNewGatewayRequest ⟨HagNetworks.empty⟩ ∧
        p.1 ≠ root ∧ t.network p.1 ≠ none) →
      (result'.1.fresh = true → (t.role p).fresh = true) →
      (∀ m ∈ peerMessages result'.2, m.calm = true) →
      Gateways root ((t.take p ev).act p ((t.nodes p.1).act p.2 result') result'.2) := by
    intro result' hgw hfits hanswer hfresh hmessages
    exact h.act prov result' _ hsub (ready_self t p) (fun _ => id) hgw hfits hanswer
      (fun hf => h.first p (hfresh hf)) hmessages
  have hskip : Gateways root ((t.take p ev).act p ((t.nodes p.1).act p.2 (t.role p, [])) []) :=
    h.silent prov hsub (ready_self t p) (fun _ => id) (h.fits rfl) (h.first p)
  cases hrole : t.role p with
  | home state =>
      rw [hrole] at hd hskip
      have hresult : result = (.home state, []) := by cases ev <;> cases hd <;> rfl
      rw [hresult]
      exact hskip
  | root state =>
      rw [hrole] at hd hskip
      have hresult : result = (.root state, []) := by cases ev <;> cases hd <;> rfl
      rw [hresult]
      exact hskip
  | forwarder state =>
      rw [hrole] at hd hnone
      have hsettled := h.settled p state hrole
      have hlocal := h.localRoot p state hrole
      simp only [keepsDefault, hrole, Bool.not_eq_true'] at keeps
      cases ev with
      | handshake event =>
          have hnot : state.globalState ≠ .withoutNetwork := by
            intro hw
            rw [RtRole.provisionedBy, if_pos (by simpa using hw)] at hnone
            cases hnone
          have hroute : event.externalNetwork ≠ Network.zero := by
            intro hzero
            simp [Peer.redirects, hnot, hzero] at keeps
          cases hd
          simp only [RtRole.ofForwarder, Peer.onHandshake_known hnot]
          refine hact (.forwarder state, _) ?_ (h.fits hrole) (by simp [RtAction.siblEvent]) ?_
            (by simp [RtAction.peerMessage])
          · simp [RtAction.gateway, hroute]
          · rw [hrole]
            exact id
      | connected connection =>
          cases hd
          refine hact (.forwarder { state with localState := .connected }, _) rfl
            (.forwarder hsettled hlocal) (by simp [Peer.onPeerConnected, RtAction.siblEvent]) ?_
            (by simp [Peer.onPeerConnected, RtAction.peerMessage, RtPeerEvent.calm])
          rw [hrole]
          simp
      | lost connection =>
          cases hd
          simp only [RtRole.ofForwarder, Peer.onPeerLost]
          split
          · next hroot =>
            obtain ⟨hne, hnot⟩ := hlocal hroot
            have hN := hsettled hnot
            refine hact (.forwarder { state with
                localState := .notConnected
                isLocalRoot := false
                dtr := 0
                globalState := .onGwRequest }, _) rfl (.forwarder (fun _ => hN) ?_) ?_
              (fun hf => by cases hf) (by simp [RtAction.peerMessage])
            · intro hlocal'
              cases hlocal'
            · intro e he
              simp only [siblEvents_cons, siblEvents_nil, RtAction.siblEvent, Option.toList_none,
                Option.toList_some, List.nil_append, List.append_nil, List.mem_singleton] at he
              exact ⟨he, hne, by simp [hN]⟩
          · refine hact (.forwarder { state with localState := .notConnected }, _) rfl
              (.forwarder hsettled hlocal) (by simp [RtAction.siblEvent]) ?_
              (by simp [RtAction.peerMessage])
            rw [hrole]
            simp
      | newGatewayRequest event =>
          -- a request that is on its way would redirect the node
          rw [RtPeerEvent.calm] at hcalm
          rw [Peer.redirects, hcalm] at keeps
          cases keeps
      | updateDtr event => cases hcalm
      | newGatewayResponse event => cases hcalm
      | unknown id => cases hd

theorem Gateways.peer (h : Gateways root t) (prov : Provisioned root network t)
    {ev : RtPeerEvent} (keeps : t.keepsDefault (.peer p ev) = true)
    (hs : t.step (.peer p ev) = some u) : Gateways root u := by
  obtain ⟨hpend, hin, ⟨state, event, hrole, hwithout, rfl, rfl⟩ | ⟨result, hd, hnone, rfl, -⟩⟩ :=
    peer_cases hs
  · obtain ⟨hne, hnone, -, ⟨j, o, offer⟩, hprovides⟩ :=
      prov.handshakeProvides hrole hwithout hin hpend
    obtain ⟨M, hM, hprovided⟩ := offer.subnet
    have haddr : event.providedNetwork.addr ≠ 0 := by
      rw [hprovided]
      exact getNodeSubnet_addr_ne_zero (h.addr j M hM) o
    rw [Peer.onHandshake_fresh hwithout] at hprovides ⊢
    refine h.provides prov hprovides hnone haddr (fun i => ?_)
      (.inr ⟨hne, ?_, prov.kinds.ne_center hrole, Peer.provisioned p.2 state event, ?_, rfl, ?_⟩)
    · refine (act_gateway (.forwarder (Peer.provisioned p.2 state event), _)
        (record (t.take p (.handshake event)) p.1 (some event.providedNetwork)) (ready_self t p)
        (record_nodes _ _ _) i).trans ?_
      simp [RtAction.gateway]
    · rw [hrole]
      simpa using hwithout
    · exact act_role_self _ p _ (.forwarder (Peer.provisioned p.2 state event), _)
    · simp [Peer.provisioned]
  · exact h.peerOrdinary prov hpend hd hnone keeps

theorem Gateways.step (h : Gateways root t) (prov : Provisioned root network t)
    (addr : network.addr ≠ 0) {l : MeshLabel ι} (earlier : t.linksEarlier l = true)
    (keeps : t.keepsDefault l = true) (hs : (meshMachine ι).step t l = some u) :
    Gateways root u := by
  cases l with
  | connect p q connection =>
      obtain ⟨hpq, -, -, rfl⟩ := step_connect hs
      exact h.connect hpq earlier
  | disconnect p connection =>
      obtain ⟨q, -, rfl⟩ := step_disconnect hs
      exact h.disconnect q connection
  | sibl p => exact h.sibl prov addr hs
  | peer p ev => exact h.peer prov keeps hs
  | lose p ev =>
      obtain ⟨-, -, rfl⟩ := step_lose hs
      exact h.take ev
  | tick i dtMs =>
      cases hs
      -- nobody has asked the root for a gateway
      have hskip : rtOnTick (t.role (i, .center)) dtMs = (t.role (i, .center), []) := by
        cases hrole : t.role (i, .center) with
        | root state =>
            have hidle := h.idle _ state hrole
            simp [rtOnTick, RtRole.ofRoot, Root.onTick, hidle]
        | _ => rfl
      simp only [hskip]
      exact h.silent prov (fun _ => id) (ready_self t (i, .center)) (fun _ => id) (h.fits rfl)
        (h.first _)

end Mesh

/-! ## Runs -/

/-- Along runs in which links join an access point to another forwarder, a board that a default
gateway names is linked only to an earlier node and no board with a network writes a route to
0/0, the default gateways lead to the root. -/
theorem mesh_loopFree {ι : Type*} [DecidableEq ι] {root : ι} {network : Network} {t : Mesh ι}
    (addr : network.addr ≠ 0)
    (run : (meshMachine ι).Executes
      (fun t l => t.linksAp l = true ∧ t.linksEarlier l = true ∧ t.keepsDefault l = true)
      (Mesh.start root network) t) : Mesh.LoopFree root t := by
  have inv : Mesh.Provisioned root network t ∧ Mesh.Gateways root t := by
    induction run with
    | refl => exact ⟨.start root network, .start root network⟩
    | tail before guard hs ih =>
        obtain ⟨links, earlier, keeps⟩ := guard
        exact ⟨ih.1.step links hs, ih.2.step ih.1 addr earlier keeps hs⟩
  exact inv.2.loopFree inv.1

/-- The root's node, 0, provisions node 1, and node 1 provisions node 2. -/
def provisionChain : List (MeshLabel (Fin 3)) :=
  [.sibl (0, .center), .sibl (0, .north), .sibl (0, .north),
    .connect (0, .north) (1, .south) Network.zero,
    .peer (0, .north) (.connected Network.zero), .sibl (1, .south),
    .peer (1, .south) (.handshake ⟨rootNetwork, ⟨0x0a200000, 0xffe00000⟩, 1⟩),
    .sibl (1, .north), .sibl (1, .north), .connect (1, .north) (2, .south) Network.zero,
    .peer (1, .north) (.connected Network.zero), .sibl (2, .south),
    .peer (2, .south)
      (.handshake ⟨⟨0x0a200000, 0xffe00000⟩, ⟨0x0a240000, 0xfffc0000⟩, 2⟩),
    .sibl (2, .north), .sibl (2, .north)]

/-- Node 1 loses the root and the board it was provisioned through is linked to node 2. -/
def chainClosed : List (MeshLabel (Fin 3)) :=
  provisionChain ++
    [.disconnect (1, .south) Network.zero, .connect (1, .south) (2, .north) Network.zero]

theorem chainClosed_runs :
    ((meshMachine (Fin 3)).runWith (fun t l => t.linksAp l && t.keepsDefault l)
      (Mesh.start 0 rootNetwork) chainClosed).isSome = true := by decide

theorem mesh_gatewayLoop :
    ¬ ∀ t : Mesh (Fin 3),
      (meshMachine (Fin 3)).Executes
        (fun t l => (t.linksAp l && t.keepsDefault l) = true) (Mesh.start 0 rootNetwork) t →
      t.LoopFree 0 := by
  intro h
  have free := h _ (Machine.executes_of_runWith (Option.some_get chainClosed_runs).symm)
  have there : (((meshMachine (Fin 3)).runWith (fun t l => t.linksAp l && t.keepsDefault l)
      (Mesh.start 0 rootNetwork) chainClosed).get chainClosed_runs).nextGateway 1 = some 2 := rfl
  exact not_neverRevisits_of_bounce .refl there rfl (free.walk 1 (by decide))

/-- The child sends its handshake before it has handled its parent's. -/
def childFirst : List (MeshLabel (Fin 3)) :=
  [.sibl (0, .center), .sibl (0, .north), .sibl (0, .north),
    .connect (0, .north) (1, .south) Network.zero, .sibl (1, .south),
    .peer (1, .south) (.connected Network.zero),
    .peer (0, .north) (.handshake ⟨Network.zero, Network.zero, 0⟩)]

theorem childFirst_runs :
    ((meshMachine (Fin 3)).runWith (fun t l => t.linksAp l && t.linksEarlier l)
      (Mesh.start 0 rootNetwork) childFirst).isSome = true := by decide

/-- The condition on routes to 0/0 is needed too: the root's gateway becomes the child. -/
theorem mesh_rootRedirected :
    ¬ ∀ t : Mesh (Fin 3),
      (meshMachine (Fin 3)).Executes
        (fun t l => (t.linksAp l && t.linksEarlier l) = true) (Mesh.start 0 rootNetwork) t →
      t.LoopFree 0 := by
  intro h
  have free := h _ (Machine.executes_of_runWith (Option.some_get childFirst_runs).symm)
  have hroot := free.root (by decide)
  revert hroot
  decide

theorem provisionChain_runs :
    ((meshMachine (Fin 3)).runWith
      (fun t l => t.linksAp l && (t.linksEarlier l && t.keepsDefault l))
      (Mesh.start 0 rootNetwork) provisionChain).isSome = true := by decide

theorem mesh_loopFree_chain :
    ((meshMachine (Fin 3)).runWith
      (fun t l => t.linksAp l && (t.linksEarlier l && t.keepsDefault l))
      (Mesh.start 0 rootNetwork) provisionChain).get provisionChain_runs |>.LoopFree 0 :=
  mesh_loopFree (by decide)
    ((Machine.executes_of_runWith (Option.some_get provisionChain_runs).symm).mono
      fun _ _ h => by simpa using h)

end I4A
