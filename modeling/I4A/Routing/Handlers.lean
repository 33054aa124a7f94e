import I4A.Routing.Subnet

/-! # Event handlers of the three roles

`forwarder/peer.c`, `forwarder/sibling.c`, `home.c` and `root.c`. A handler takes
the board's orientation, its role state and the payload of the event; it returns
the new state and its calls in program order. No handler reads the routing
table, so the calls can be carried out afterwards.
-/

namespace I4A

open RtAction

/-! ## Forwarder -/

/-- `create_forwarder_core`. -/
def createForwarderCore : RtForwarderState where
  nodeNetwork := Network.zero
  deviceNetwork := Network.zero
  isLocalRoot := false
  localState := .notConnected
  globalState := .withoutNetwork
  dtr := 0

namespace Forwarder.Peer

variable (self : Orientation) (state : RtForwarderState)

/-- The handshake a board opens a connection with. -/
def handshakeOf : RtPeerHandshake where
  externalNetwork := state.nodeNetwork
  providedNetwork := state.deviceNetwork
  dtr := state.dtr

def onPeerConnected : RtForwarderState × List RtAction :=
  ({ state with localState := .connected }, [wlSendPeerMessage (.handshake (handshakeOf state))])

/-- The sibling event of a provisioning handshake; `dtr + 1` is stored in 16 bits. -/
def provisionOf (event : RtPeerHandshake) : RtSiblProvision where
  providerId := BitVec.ofNat 16 self.val
  dtr := (event.dtr + 1).setWidth 16
  network := event.providedNetwork

def onHandshake (event : RtPeerHandshake) : RtForwarderState × List RtAction :=
  if state.globalState = .withoutNetwork then
    let device := getNodeSubnet event.providedNetwork self
    ({ state with
        dtr := event.dtr
        deviceNetwork := device
        nodeNetwork := event.providedNetwork
        globalState := .withNetwork
        isLocalRoot := true },
      [nodeSetNetworkSettings device, addGlobalRoute Network.zero self,
        rsBroadcast (.provision (provisionOf self event))])
  else
    (state, [addGlobalRoute event.externalNetwork self])

def onUpdateDtr (event : RtPeerUpdateDtr) : RtForwarderState × List RtAction :=
  if event.dtr = 0 then (state, [])
  else if state.dtr = 0 ∨ event.dtr + 1 < state.dtr then
    ({ state with dtr := event.dtr + 1, isLocalRoot := true },
      [addGlobalRoute Network.zero self, rsBroadcast (.updateDtr ⟨event.dtr + 1⟩)])
  else (state, [])

/-- The loop of `on_new_gateway_request`: it tests entry 0 on every turn and adds entry `i`. -/
def requestRoutes (hag : HagNetworks) : List Network → List RtAction
  | [] => []
  | network :: rest =>
      if hag[0].addr = 0 then []
      else addGlobalRoute network self :: requestRoutes hag rest

def onNewGatewayRequest (event : RtPeerNewGatewayRequest) : RtForwarderState × List RtAction :=
  let routes := requestRoutes self event.hagNetworks event.hagNetworks.toList
  let siblEvent : RtSiblEvent := .sendNewGatewayRequest ⟨event.hagNetworks⟩
  if state.dtr = 1 then (state, routes ++ [rsBroadcast siblEvent])
  else if state.globalState = .onGwRequest then (state, routes)
  else
    ({ state with globalState := .onGwRequest, dtr := 0 }, routes ++ [rsBroadcast siblEvent])

def onNewGatewayResponse (event : RtPeerNewGatewayResponse) :
    RtForwarderState × List RtAction :=
  if state.dtr ≠ 0 ∧ state.dtr ≤ event.dtr then (state, [])
  else
    ({ state with
        globalState := .withNetwork
        isLocalRoot := true
        dtr := event.dtr + 1 },
      [addGlobalRoute Network.zero self,
        rsBroadcast (.newGatewayWinner ⟨event.externalNetwork, event.dtr + 1⟩)])

def onPeerLost : RtForwarderState × List RtAction :=
  if state.isLocalRoot then
    ({ state with
        localState := .notConnected
        isLocalRoot := false
        dtr := 0
        globalState := .onGwRequest },
      [removeRoutesByOutput self, rsBroadcast (.sendNewGatewayRequest ⟨HagNetworks.empty⟩)])
  else ({ state with localState := .notConnected }, [removeRoutesByOutput self])

end Forwarder.Peer

namespace Forwarder.Sibling

variable (self : Orientation) (state : RtForwarderState)

def onUpdateDtr (event : RtSiblUpdateDtr) : RtForwarderState × List RtAction :=
  if event.dtr = 0 then (state, [])
  else if state.dtr = 0 ∨ event.dtr < state.dtr then
    ({ state with dtr := event.dtr, isLocalRoot := false },
      if state.localState = .connected then [wlSendPeerMessage (.updateDtr ⟨event.dtr⟩)] else [])
  else (state, [])

def onProvision (event : RtSiblProvision) : RtForwarderState × List RtAction :=
  if state.globalState = .withNetwork then (state, [])
  else
    let device := getNodeSubnet event.network self
    ({ state with
        dtr := event.dtr.setWidth 32
        deviceNetwork := device
        nodeNetwork := event.network
        globalState := .withNetwork
        isLocalRoot := false },
      [wlEnableApMode device])

def onSendNewGatewayRequest (event : RtSiblSendNewGatewayRequest) :
    RtForwarderState × List RtAction :=
  if state.dtr = 1 then (state, [])
  else if state.globalState = .onGwRequest then (state, [])
  else if state.localState = .notConnected then (state, [])
  else
    match findFreeSpot event.hagNetworks with
    | none => (state, [])
    | some i =>
        ({ state with globalState := .onGwRequest, dtr := 0 },
          [wlSendPeerMessage
            (.newGatewayRequest ⟨event.hagNetworks.setIfInBounds i state.nodeNetwork⟩)])

def onNewGatewayWinner (event : RtSiblNewGatewayWinner) : RtForwarderState × List RtAction :=
  if state.dtr = 1 then
    (state, [wlSendPeerMessage (.newGatewayResponse ⟨state.nodeNetwork, state.dtr⟩)])
  else
    ({ state with
        globalState := .withNetwork
        isLocalRoot := false
        dtr := event.dtr + 1 },
      [wlSendPeerMessage (.newGatewayResponse ⟨state.nodeNetwork, event.dtr + 1⟩)])

end Forwarder.Sibling

/-! ## Home -/

/-- `create_home_core`. -/
def createHomeCore : RtHomeState := ⟨false⟩

namespace Home

variable (self : Orientation) (state : RtHomeState)

def onStart : RtHomeState × List RtAction := (state, [ssRefresh])

def onProvision (provision : RtSiblProvision) : RtHomeState × List RtAction :=
  if state.isProvisioned then (state, [])
  else
    let mySubnet := getNodeSubnet provision.network self
    ({ state with isProvisioned := true },
      [addGlobalRoute mySubnet self, wlEnableApMode mySubnet])

end Home

/-! ## Root -/

/-- `GATEWAY_REQUEST_TIMEOUT`, in milliseconds. -/
def gatewayRequestTimeout : BitVec 32 := 10000

/-- `create_root_core`. -/
def createRootCore (rootNetwork rootMask : BitVec 32) : RtRootState where
  network := ⟨rootNetwork, rootMask⟩
  gatewayRequested := false
  gatewayRequestedTimeout := 0

namespace Root

variable (self : Orientation) (state : RtRootState)

def onStart : RtRootState × List RtAction :=
  (state,
    [addGlobalRoute Network.zero self,
      rsBroadcast (.provision
        { providerId := BitVec.ofNat 16 Orientation.center.val, dtr := 1,
          network := state.network })])

def onNewGatewayRequest (_unused : RtSiblSendNewGatewayRequest) : RtRootState × List RtAction :=
  ({ state with
      gatewayRequested := true
      gatewayRequestedTimeout := gatewayRequestTimeout }, [])

def onTick (dtMs : BitVec 32) : RtRootState × List RtAction :=
  if ¬ state.gatewayRequested then (state, [])
  else if state.gatewayRequestedTimeout ≤ dtMs then
    ({ state with gatewayRequested := false, gatewayRequestedTimeout := 0 },
      [rsBroadcast (.newGatewayWinner ⟨state.network, 1⟩)])
  else
    ({ state with gatewayRequestedTimeout := state.gatewayRequestedTimeout - dtMs }, [])

end Root

/-! ## The routes of a gateway request -/

/-- The loop adds every entry or none: only the first address is ever tested. -/
theorem Forwarder.Peer.requestRoutes_eq (self : Orientation) (hag : HagNetworks)
    (l : List Network) :
    requestRoutes self hag l = if hag[0].addr = 0 then [] else l.map (addGlobalRoute · self) := by
  induction l with
  | nil => simp [requestRoutes]
  | cons network rest ih =>
      by_cases h : hag[0].addr = 0
      · rw [requestRoutes, if_pos h, if_pos h]
      · rw [requestRoutes, if_neg h, ih, if_neg h, if_neg h, List.map_cons]

/-! ## Events that write the default gateway -/

/-- `sibling.c` `on_update_dtr` rejects the distance. -/
def Forwarder.Sibling.refuses (state : RtForwarderState) (dtr : BitVec 32) : Bool :=
  dtr = 0 ∨ ¬ (state.dtr = 0 ∨ dtr < state.dtr)

/-- The peer event writes its board over the default gateway of a node with a network. -/
def Forwarder.Peer.redirects (state : RtForwarderState) : RtPeerEvent → Bool
  | .handshake event =>
      state.globalState ≠ .withoutNetwork ∧ event.externalNetwork = Network.zero
  | .newGatewayRequest event =>
      event.hagNetworks[0].addr ≠ 0 ∧ Network.zero ∈ event.hagNetworks.toList
  | _ => false

/-- The peer event makes board `self` the gateway, or writes `self` over the gateway, and the
broadcast that goes with it does not demote `other`. -/
def Forwarder.Peer.overrides (self other : RtForwarderState) : RtPeerEvent → Bool
  | .handshake event =>
      self.globalState ≠ .withoutNetwork ∧ event.externalNetwork = Network.zero
  | .updateDtr event =>
      event.dtr ≠ 0 ∧ (self.dtr = 0 ∨ event.dtr + 1 < self.dtr) ∧
        Forwarder.Sibling.refuses other (event.dtr + 1)
  | .newGatewayRequest event =>
      event.hagNetworks[0].addr ≠ 0 ∧ Network.zero ∈ event.hagNetworks.toList
  | .newGatewayResponse event =>
      ¬ (self.dtr ≠ 0 ∧ self.dtr ≤ event.dtr) ∧ other.dtr = 1
  | _ => false

/-- A peer event that starts no election: a gateway request among them is one that would
redirect the node that handles it. -/
def RtPeerEvent.calm : RtPeerEvent → Bool
  | .updateDtr _ => false
  | .newGatewayResponse _ => false
  | .newGatewayRequest event =>
      event.hagNetworks[0].addr ≠ 0 ∧ Network.zero ∈ event.hagNetworks.toList
  | _ => true

end I4A
