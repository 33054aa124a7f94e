import I4A.Routing.Table

/-! # Events, roles and the board's routing state

`impl.h`, `types.h` and `routing.h`. An event is the tagged union the C code
switches on; the tag `unknown` stands for every `event_id` outside the
enumeration, which a message may carry because only its length is checked on
arrival. Function pointers are not stored: a board's role determines them.
-/

namespace I4A

/-- `network_t`. -/
structure Network where
  addr : BitVec 32
  mask : BitVec 32
  deriving DecidableEq, Repr

/-- `NETWORK(0, 0)`. -/
def Network.zero : Network := ⟨0, 0⟩

theorem Network.eq_zero_iff {network : Network} :
    network = zero ↔ network.addr = 0 ∧ network.mask = 0 := by
  cases network
  simp [zero]

/-- Slots of `hag_networks`. -/
def maxHagNetworks : Nat := 16

abbrev HagNetworks := Vector Network maxHagNetworks

def HagNetworks.empty : HagNetworks := Vector.replicate maxHagNetworks Network.zero

/-! ## Peer events -/

structure RtPeerHandshake where
  externalNetwork : Network
  providedNetwork : Network
  dtr : BitVec 32
  deriving DecidableEq, Repr

structure RtPeerUpdateDtr where
  dtr : BitVec 32
  deriving DecidableEq, Repr

structure RtPeerNewGatewayRequest where
  hagNetworks : HagNetworks
  deriving DecidableEq, Repr

structure RtPeerNewGatewayResponse where
  externalNetwork : Network
  dtr : BitVec 32
  deriving DecidableEq, Repr

/-- An `event_id` that names no peer event. -/
abbrev UnknownPeerId := { id : BitVec 32 // id = 0 ∨ 6 < id.toNat }

/-- `rt_peer_event_t`, events 1 to 6 and the rest. -/
inductive RtPeerEvent where
  | handshake (payload : RtPeerHandshake)
  | updateDtr (payload : RtPeerUpdateDtr)
  | newGatewayRequest (payload : RtPeerNewGatewayRequest)
  | newGatewayResponse (payload : RtPeerNewGatewayResponse)
  | connected (connection : Network)
  | lost (connection : Network)
  | unknown (eventId : UnknownPeerId)
  deriving DecidableEq

/-! ## Sibling events -/

structure RtSiblUpdateDtr where
  dtr : BitVec 32
  deriving DecidableEq, Repr

/-- The provider and the distance are 16 bits wide here, unlike everywhere else. -/
structure RtSiblProvision where
  providerId : BitVec 16
  dtr : BitVec 16
  network : Network
  deriving DecidableEq, Repr

structure RtSiblSendNewGatewayRequest where
  hagNetworks : HagNetworks
  deriving DecidableEq, Repr

structure RtSiblNewGatewayWinner where
  network : Network
  dtr : BitVec 32
  deriving DecidableEq, Repr

/-- An `event_id` that names no sibling event. -/
abbrev UnknownSiblId := { id : BitVec 32 // id = 0 ∨ 5 < id.toNat }

/-- `rt_sibl_event_t`, events 1 to 5 and the rest. -/
inductive RtSiblEvent where
  | onStart
  | updateDtr (payload : RtSiblUpdateDtr)
  | provision (payload : RtSiblProvision)
  | sendNewGatewayRequest (payload : RtSiblSendNewGatewayRequest)
  | newGatewayWinner (payload : RtSiblNewGatewayWinner)
  | unknown (eventId : UnknownSiblId)
  deriving DecidableEq

/-- Whether the switch of `on_critical_section` has a case for the event. -/
def RtPeerEvent.known : RtPeerEvent → Bool
  | .unknown _ => false
  | _ => true

def RtSiblEvent.known : RtSiblEvent → Bool
  | .unknown _ => false
  | _ => true

/-! ## Roles -/

/-- `rt_root_state_t`. -/
structure RtRootState where
  network : Network
  gatewayRequested : Bool
  gatewayRequestedTimeout : BitVec 32
  deriving DecidableEq, Repr

/-- `rt_home_state_t`. -/
structure RtHomeState where
  isProvisioned : Bool
  deriving DecidableEq, Repr

/-- `LOCAL_STATE_*`. -/
inductive RtLocalState where
  | notConnected | connected
  deriving DecidableEq, Repr

/-- `GLOBAL_STATE_*`. -/
inductive RtGlobalState where
  | withNetwork | withoutNetwork | ready | onGwRequest
  deriving DecidableEq, Repr

/-- `rt_forwarder_state_t`. -/
structure RtForwarderState where
  nodeNetwork : Network
  deviceNetwork : Network
  isLocalRoot : Bool
  localState : RtLocalState
  globalState : RtGlobalState
  dtr : BitVec 32
  deriving DecidableEq, Repr

/-- `rt_role_t`: the state union, with the constructor in the place of the callbacks that
`create_forwarder_core`, `create_home_core` or `create_root_core` put next to it. -/
inductive RtRole where
  | forwarder (state : RtForwarderState)
  | home (state : RtHomeState)
  | root (state : RtRootState)
  deriving DecidableEq, Repr

/-- `MAX_PEER_EVENT_QUEUED` and `MAX_SIBL_EVENT_QUEUED`. -/
def maxPeerEventQueued : Nat := 16
def maxSiblEventQueued : Nat := 16

/-- `routing_t` without the shared node state. -/
structure RtDevice where
  orientation : Orientation
  externalQueue : List RtPeerEvent
  internalQueue : List RtSiblEvent
  role : RtRole
  deriving DecidableEq

/-- `routing_t`: a board and its copy of the routing table. -/
structure Routing extends RtDevice where
  routingTable : RtRoutingTable
  deriving DecidableEq

/-! ## What a handler does outside its role state -/

/-- The calls a handler makes, in program order. -/
inductive RtAction where
  | addGlobalRoute (route : Network) (output : Orientation)
  | removeRoutesByOutput (output : Orientation)
  | ssRefresh
  | rsBroadcast (event : RtSiblEvent)
  | wlSendPeerMessage (event : RtPeerEvent)
  | wlEnableApMode (network : Network)
  | nodeSetNetworkSettings (network : Network)
  deriving DecidableEq

/-- What leaves the routing module: a copy of the table for the siblings' shared state, a
sibling event, a peer message, or a call into the node. -/
inductive RtOutput where
  | sharedState (table : RtRoutingTable)
  | sibling (event : RtSiblEvent)
  | peer (event : RtPeerEvent)
  | apMode (network : Network)
  | networkSettings (network : Network)
  deriving DecidableEq

namespace RtAction

/-- Carry out one call on the board's table. `add_global_route` and
`remove_routes_by_output` end with `ss_refresh`. -/
def perform (table : RtRoutingTable) : RtAction → RtRoutingTable × List RtOutput
  | .addGlobalRoute route output =>
      let table' := routingTableAdd table route.addr route.mask output.output
      (table', [.sharedState table'])
  | .removeRoutesByOutput output =>
      let table' := routingTableRemoveByOutput table output.output
      (table', [.sharedState table'])
  | .ssRefresh => (table, [.sharedState table])
  | .rsBroadcast event => (table, [.sibling event])
  | .wlSendPeerMessage event => (table, [.peer event])
  | .wlEnableApMode network => (table, [.apMode network])
  | .nodeSetNetworkSettings network => (table, [.networkSettings network])

/-- Carry out the calls of a handler in order. -/
def performAll (table : RtRoutingTable) : List RtAction → RtRoutingTable × List RtOutput
  | [] => (table, [])
  | action :: rest =>
      let first := action.perform table
      let others := performAll first.1 rest
      (others.1, first.2 ++ others.2)

@[simp] theorem performAll_nil (table : RtRoutingTable) : performAll table [] = (table, []) := rfl

@[simp] theorem performAll_cons (table : RtRoutingTable) (action : RtAction)
    (rest : List RtAction) :
    performAll table (action :: rest) =
      ((performAll (action.perform table).1 rest).1,
        (action.perform table).2 ++ (performAll (action.perform table).1 rest).2) := rfl

theorem performAll_append (table : RtRoutingTable) (first second : List RtAction) :
    performAll table (first ++ second) =
      ((performAll (performAll table first).1 second).1,
        (performAll table first).2 ++ (performAll (performAll table first).1 second).2) := by
  induction first generalizing table with
  | nil => simp
  | cons action rest ih => simp [ih, List.append_assoc]

end RtAction

end I4A
