import I4A.Node.Hearing

/-! # What provisions a board

Three events give a board its network: the root's `on_start`, a handshake on a
board without network and the provision broadcast on a board that is not yet
`GLOBAL_STATE_WITH_NETWORK`. Whatever else a board handles is ordinary: it
keeps its networks, opens no access point and provisions nobody.
-/

namespace I4A

open Forwarder

/-- The forwarder has not been provisioned and waits for a handshake. -/
def RtRole.fresh : RtRole → Bool
  | .forwarder state => state.globalState = .withoutNetwork
  | _ => false

@[simp] theorem RtRole.fresh_forwarder (state : RtForwarderState) :
    (RtRole.forwarder state).fresh = true ↔ state.globalState = .withoutNetwork := by
  simp [RtRole.fresh]

/-- Whether a call list told the wireless driver to open an access point. -/
def apEnabled (actions : List RtAction) : Bool := actions.any RtAction.enablesAp

/-- The role is of the same kind with the same networks, and not fresh again. -/
def RtRole.Keeps : RtRole → RtRole → Prop
  | .forwarder state, .forwarder state' =>
      state'.nodeNetwork = state.nodeNetwork ∧ state'.deviceNetwork = state.deviceNetwork ∧
        (state'.globalState = .withoutNetwork → state.globalState = .withoutNetwork)
  | .home _, .home _ => True
  | .root state, .root state' => state'.network = state.network
  | _, _ => False

theorem RtRole.Keeps.rfl (role : RtRole) : role.Keeps role := by
  cases role <;> simp [RtRole.Keeps]

theorem RtRole.Keeps.fresh {role role' : RtRole} (h : role.Keeps role')
    (hfresh : role'.fresh = true) : role.fresh = true := by
  cases role <;> cases role' <;> simp_all [RtRole.Keeps, RtRole.fresh]

/-- A handler's result that provisions nobody. -/
structure Ordinary (role : RtRole) (result : RtRole × List RtAction) : Prop where
  keeps : role.Keeps result.1
  noAp : ∀ state, role = .forwarder state → apEnabled result.2 = false
  answer : ∀ ev ∈ siblEvents result.2, ev ≠ .onStart ∧ ∀ event, ev ≠ .provision event
  handshake : ∀ event, .handshake event ∈ peerMessages result.2 →
    ∃ state, role = .forwarder state ∧ event = Peer.handshakeOf state

namespace Ordinary

theorem skip (role : RtRole) : Ordinary role (role, []) where
  keeps := .rfl role
  noAp _ _ := by rfl
  answer := by simp
  handshake := by simp

theorem forwarder {state state' : RtForwarderState} {actions : List RtAction}
    (hnode : state'.nodeNetwork = state.nodeNetwork)
    (hdevice : state'.deviceNetwork = state.deviceNetwork)
    (hfresh : state'.globalState = .withoutNetwork → state.globalState = .withoutNetwork)
    (hap : apEnabled actions = false)
    (hanswer : ∀ ev ∈ siblEvents actions, ev ≠ .onStart ∧ ∀ event, ev ≠ .provision event)
    (hmessage : ∀ event, .handshake event ∉ peerMessages actions) :
    Ordinary (.forwarder state) (.forwarder state', actions) where
  keeps := ⟨hnode, hdevice, hfresh⟩
  noAp _ _ := hap
  answer := hanswer
  handshake event hevent := absurd hevent (hmessage event)

end Ordinary

theorem apEnabled_routes (routes : List Network) (o : Orientation) :
    apEnabled (routes.map (RtAction.addGlobalRoute · o)) = false := by
  induction routes with
  | nil => rfl
  | cons route rest ih => exact ih

@[simp] theorem apEnabled_append (first second : List RtAction) :
    apEnabled (first ++ second) = (apEnabled first || apEnabled second) :=
  List.any_append

/-! ## The switches -/

/-- A forwarder after the provision broadcast. -/
def Forwarder.Sibling.provisioned (self : Orientation) (state : RtForwarderState)
    (event : RtSiblProvision) : RtForwarderState :=
  { state with
    dtr := event.dtr.setWidth 32
    deviceNetwork := getNodeSubnet event.network self
    nodeNetwork := event.network
    globalState := .withNetwork
    isLocalRoot := false }

/-- A forwarder after a provisioning handshake. -/
def Forwarder.Peer.provisioned (self : Orientation) (state : RtForwarderState)
    (event : RtPeerHandshake) : RtForwarderState :=
  { state with
    dtr := event.dtr
    deviceNetwork := getNodeSubnet event.providedNetwork self
    nodeNetwork := event.providedNetwork
    globalState := .withNetwork
    isLocalRoot := true }

theorem Forwarder.Peer.onHandshake_fresh {self : Orientation} {state : RtForwarderState}
    {event : RtPeerHandshake} (h : state.globalState = .withoutNetwork) :
    Peer.onHandshake self state event = (Peer.provisioned self state event,
      [.nodeSetNetworkSettings (getNodeSubnet event.providedNetwork self),
        .addGlobalRoute Network.zero self,
        .rsBroadcast (.provision (Peer.provisionOf self event))]) := by
  rw [Peer.onHandshake, if_pos h]
  rfl

theorem Forwarder.Peer.onHandshake_known {self : Orientation} {state : RtForwarderState}
    {event : RtPeerHandshake} (h : state.globalState ≠ .withoutNetwork) :
    Peer.onHandshake self state event =
      (state, [.addGlobalRoute event.externalNetwork self]) := by
  rw [Peer.onHandshake, if_neg h]

/-- A sibling event is the root's start, provisions a forwarder, or is ordinary. -/
theorem dispatchSibl_cases {o : Orientation} {role : RtRole} {ev : RtSiblEvent}
    {result : RtRole × List RtAction} (hd : dispatchSibl o role ev = some result) :
    (∃ state, role = .root state ∧ ev = .onStart ∧ result = RtRole.ofRoot (Root.onStart o state)) ∨
      (∃ state event, role = .forwarder state ∧ ev = .provision event ∧
        state.globalState ≠ .withNetwork ∧
        result = (.forwarder (Sibling.provisioned o state event),
          [.wlEnableApMode (getNodeSubnet event.network o)])) ∨
      Ordinary role result := by
  cases ev with
  | onStart =>
      cases hd
      cases role with
      | forwarder state => exact .inr (.inr (.skip _))
      | home state =>
          refine .inr (.inr ⟨.rfl _, fun s hs => (by cases hs), ?_, ?_⟩)
          · simp [RtRole.ofHome, Home.onStart, RtAction.siblEvent]
          · simp [RtRole.ofHome, Home.onStart, RtAction.peerMessage]
      | root state => exact .inl ⟨state, rfl, rfl, rfl⟩
  | provision event =>
      cases hd
      cases role with
      | forwarder state =>
          by_cases hwith : state.globalState = .withNetwork
          · refine .inr (.inr ?_)
            simp only [RtRole.ofForwarder, Sibling.onProvision, if_pos hwith]
            exact .skip _
          · refine .inr (.inl ⟨state, event, rfl, rfl, hwith, ?_⟩)
            simp only [RtRole.ofForwarder, Sibling.onProvision, if_neg hwith]
            rfl
      | home state =>
          refine .inr (.inr ?_)
          simp only [RtRole.ofHome, Home.onProvision]
          split
          · exact .skip _
          · exact ⟨trivial, fun s hs => (by cases hs), by simp [RtAction.siblEvent],
              by simp [RtAction.peerMessage]⟩
      | root state => exact .inr (.inr (.skip _))
  | updateDtr event =>
      cases hd
      cases role with
      | forwarder state =>
          refine .inr (.inr ?_)
          simp only [RtRole.ofForwarder, Sibling.onUpdateDtr]
          split
          · exact .skip _
          · split
            · split
              · exact .forwarder rfl rfl id rfl (by simp [RtAction.siblEvent])
                  (by simp [RtAction.peerMessage])
              · exact .forwarder rfl rfl id rfl (by simp) (by simp)
            · exact .skip _
      | home state => exact .inr (.inr (.skip _))
      | root state => exact .inr (.inr (.skip _))
  | sendNewGatewayRequest event =>
      cases hd
      cases role with
      | forwarder state =>
          refine .inr (.inr ?_)
          simp only [RtRole.ofForwarder, Sibling.onSendNewGatewayRequest]
          split
          · exact .skip _
          · split
            · exact .skip _
            · split
              · exact .skip _
              · split
                · exact .skip _
                · exact .forwarder rfl rfl (by simp) rfl (by simp [RtAction.siblEvent])
                    (by simp [RtAction.peerMessage])
      | home state => exact .inr (.inr (.skip _))
      | root state =>
          exact .inr (.inr ⟨rfl, fun s hs => (by cases hs),
            by simp [RtRole.ofRoot, Root.onNewGatewayRequest],
            by simp [RtRole.ofRoot, Root.onNewGatewayRequest]⟩)
  | newGatewayWinner event =>
      cases hd
      cases role with
      | forwarder state =>
          refine .inr (.inr ?_)
          simp only [RtRole.ofForwarder, Sibling.onNewGatewayWinner]
          split
          · exact .forwarder rfl rfl id rfl (by simp [RtAction.siblEvent])
              (by simp [RtAction.peerMessage])
          · exact .forwarder rfl rfl (by simp) rfl (by simp [RtAction.siblEvent])
              (by simp [RtAction.peerMessage])
      | home state => exact .inr (.inr (.skip _))
      | root state => exact .inr (.inr (.skip _))
  | unknown id => cases hd

/-- After a provision broadcast a board is not fresh. -/
theorem dispatchSibl_provision_fresh {o : Orientation} {role : RtRole} {event : RtSiblProvision}
    {result : RtRole × List RtAction} (hd : dispatchSibl o role (.provision event) = some result) :
    result.1.fresh = false := by
  cases role with
  | forwarder state =>
      cases hd
      simp only [RtRole.ofForwarder, Sibling.onProvision]
      split
      · next hwith => simp [RtRole.fresh, hwith]
      · rfl
  | home state =>
      cases hd
      rfl
  | root state =>
      cases hd
      rfl

/-- A peer event provisions a forwarder without network by a handshake, or is ordinary. -/
theorem dispatchPeer_cases {o : Orientation} {role : RtRole} {ev : RtPeerEvent}
    {result : RtRole × List RtAction} (hd : dispatchPeer o role ev = some result) :
    (∃ state event, role = .forwarder state ∧ ev = .handshake event ∧
      state.globalState = .withoutNetwork ∧
      result = RtRole.ofForwarder (Peer.onHandshake o state event)) ∨
      Ordinary role result := by
  cases role with
  | home state =>
      right
      cases ev <;> cases hd <;> exact .skip _
  | root state =>
      right
      cases ev <;> cases hd <;> exact .skip _
  | forwarder state =>
    cases ev with
    | handshake event =>
        cases hd
        by_cases hwithout : state.globalState = .withoutNetwork
        · exact .inl ⟨state, event, rfl, rfl, hwithout, rfl⟩
        · right
          simp only [RtRole.ofForwarder, Peer.onHandshake_known hwithout]
          exact .forwarder rfl rfl id rfl (by simp [RtAction.siblEvent])
            (by simp [RtAction.peerMessage])
    | updateDtr event =>
        cases hd
        right
        simp only [RtRole.ofForwarder, Peer.onUpdateDtr]
        split
        · exact .skip _
        · split
          · exact .forwarder rfl rfl id rfl (by simp [RtAction.siblEvent])
              (by simp [RtAction.peerMessage])
          · exact .skip _
    | newGatewayRequest event =>
        cases hd
        right
        have hroutes : apEnabled (Peer.requestRoutes o event.hagNetworks
              event.hagNetworks.toList) = false ∧
            siblEvents (Peer.requestRoutes o event.hagNetworks event.hagNetworks.toList) = [] ∧
            peerMessages (Peer.requestRoutes o event.hagNetworks event.hagNetworks.toList) =
              [] := by
          rw [Peer.requestRoutes_eq]
          split
          · exact ⟨rfl, rfl, rfl⟩
          · exact ⟨apEnabled_routes _ o, siblEvents_routes _ o, peerMessages_routes _ o⟩
        obtain ⟨hap, hsibl, hpeer⟩ := hroutes
        simp only [RtRole.ofForwarder, Peer.onNewGatewayRequest]
        split
        · exact .forwarder rfl rfl id (by rw [apEnabled_append, hap]; rfl)
            (by simp [hsibl, RtAction.siblEvent]) (by simp [hpeer, RtAction.peerMessage])
        · split
          · exact .forwarder rfl rfl id hap (by simp [hsibl]) (by simp [hpeer])
          · exact .forwarder rfl rfl (by simp) (by rw [apEnabled_append, hap]; rfl)
              (by simp [hsibl, RtAction.siblEvent]) (by simp [hpeer, RtAction.peerMessage])
    | newGatewayResponse event =>
        cases hd
        right
        simp only [RtRole.ofForwarder, Peer.onNewGatewayResponse]
        split
        · exact .skip _
        · exact .forwarder rfl rfl (by simp) rfl (by simp [RtAction.siblEvent])
            (by simp [RtAction.peerMessage])
    | connected connection =>
        cases hd
        right
        refine ⟨⟨rfl, rfl, id⟩, fun _ _ => rfl, by simp [RtRole.ofForwarder, Peer.onPeerConnected,
          RtAction.siblEvent], fun event hevent => ⟨state, rfl, ?_⟩⟩
        simpa [RtRole.ofForwarder, Peer.onPeerConnected, RtAction.peerMessage] using hevent
    | lost connection =>
        cases hd
        right
        simp only [RtRole.ofForwarder, Peer.onPeerLost]
        split
        · exact .forwarder rfl rfl (by simp) rfl (by simp [RtAction.siblEvent])
            (by simp [RtAction.peerMessage])
        · exact .forwarder rfl rfl id rfl (by simp [RtAction.siblEvent])
            (by simp [RtAction.peerMessage])
    | unknown id => cases hd

theorem rtOnTick_ordinary (role : RtRole) (dtMs : BitVec 32) :
    Ordinary role (rtOnTick role dtMs) := by
  cases role with
  | forwarder state => exact .skip _
  | home state => exact .skip _
  | root state =>
      simp only [rtOnTick, RtRole.ofRoot, Root.onTick]
      split
      · exact .skip _
      · split
        · exact ⟨rfl, fun s hs => (nomatch hs), by simp [RtAction.siblEvent],
            by simp [RtAction.peerMessage]⟩
        · exact ⟨rfl, fun s hs => (nomatch hs), by simp, by simp⟩

end I4A
