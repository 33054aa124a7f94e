import I4A.Flood.Model

/-! # The flood of gateway requests

A request carries the networks of the boards that sent it on. Every board that sends
it on to its peer takes one of the sixteen free slots, so a request has a number of
deliveries left that does not depend on what the boards remember.
-/

namespace I4A

namespace HagNetworks

/-- Slots that `find_free_spot` does not stop at. -/
def used (hag : HagNetworks) : Nat := hag.toList.countP (·.addr ≠ 0)

/-- One more slot is used, and the used ones are as they were. -/
structure OneMore (hag hag' : HagNetworks) : Prop where
  used : hag'.used = hag.used + 1
  earlier : ∀ i : Fin maxHagNetworks, hag[i].addr ≠ 0 → hag'[i] = hag[i]

theorem used_le (hag : HagNetworks) : hag.used ≤ maxHagNetworks := by
  have h := List.countP_le_length (p := fun network : Network => decide (network.addr ≠ 0))
    (l := hag.toList)
  rwa [Vector.length_toList] at h

theorem findFreeSpot_spec {hag : HagNetworks} {i : Nat} (h : findFreeSpot hag = some i) :
    ∃ hi : i < maxHagNetworks, hag[i].addr = 0 := by
  rw [findFreeSpot, List.findIdx?_eq_some_iff_getElem] at h
  obtain ⟨hi, haddr, -⟩ := h
  have hi' : i < maxHagNetworks := by rwa [Vector.length_toList] at hi
  exact ⟨hi', by simpa using haddr⟩

theorem findFreeSpot_eq_none {hag : HagNetworks} :
    findFreeSpot hag = none ↔ hag.used = maxHagNetworks := by
  have hlen : hag.toList.length = maxHagNetworks := Vector.length_toList
  have hall := List.countP_eq_length (p := fun network : Network => decide (network.addr ≠ 0))
    (l := hag.toList)
  rw [hlen] at hall
  rw [findFreeSpot, List.findIdx?_eq_none_iff, used, hall]
  simp

/-- Writing a network with an address into a free slot. -/
theorem oneMore_set {hag : HagNetworks} {i : Nat} (h : findFreeSpot hag = some i)
    {network : Network} (haddr : network.addr ≠ 0) :
    hag.OneMore (hag.setIfInBounds i network) := by
  obtain ⟨hi, hfree⟩ := findFreeSpot_spec h
  constructor
  · have hlen : i < hag.toList.length := by
      rw [Vector.length_toList]
      exact hi
    rw [used, used, Vector.toList_setIfInBounds, List.countP_set hlen]
    have hused : ¬ network.addr = 0#32 := haddr
    simp [hfree, hused]
  · intro j hj
    have hne : i ≠ j.val := by
      rintro rfl
      exact hj hfree
    show (hag.setIfInBounds i network)[j.val] = hag[j.val]
    exact Vector.getElem_setIfInBounds_ne _ hne

end HagNetworks

/-! ## How many deliveries a message is worth -/

/-- A request to a board with so many free slots, and all that follow from it. -/
def siblWeight : Nat → Nat
  | 0 => 1
  | free + 1 => 2 + 4 * siblWeight free

/-- A peer request is broadcast to four boards. -/
def peerWeight (free : Nat) : Nat := 1 + 4 * siblWeight free

theorem siblWeight_succ (free : Nat) : siblWeight (free + 1) = 1 + peerWeight free := by
  rw [siblWeight, peerWeight]
  omega

theorem siblWeight_pos (free : Nat) : 0 < siblWeight free := by
  cases free with
  | zero => exact Nat.one_pos
  | succ free =>
      rw [siblWeight]
      omega

namespace HagNetworks

/-- Slots left. -/
def free (hag : HagNetworks) : Nat := maxHagNetworks - hag.used

end HagNetworks

/-- A lost peer starts a request with no slot used. -/
def RtEvent.weight : RtEvent → Nat
  | .sibl (.sendNewGatewayRequest event) => siblWeight event.hagNetworks.free
  | .peer (.newGatewayRequest event) => peerWeight event.hagNetworks.free
  | .peer (.lost _) => 4 * siblWeight HagNetworks.empty.free
  | _ => 0

/-- `SIBL_SEND_NEW_GATEWAY_REQUEST` and `PEER_NEW_GATEWAY_REQUEST`. -/
def RtEvent.isRequest : RtEvent → Bool
  | .sibl (.sendNewGatewayRequest _) => true
  | .peer (.newGatewayRequest _) => true
  | _ => false

theorem peerWeight_pos (free : Nat) : 0 < peerWeight free := by
  unfold peerWeight
  omega

theorem RtEvent.weight_pos {ev : RtEvent} (h : ev.isRequest = true) : 0 < ev.weight := by
  cases ev with
  | sibl event =>
      cases event with
      | sendNewGatewayRequest event => exact siblWeight_pos _
      | _ => cases h
  | peer event =>
      cases event with
      | newGatewayRequest event => exact peerWeight_pos _
      | _ => cases h

/-- What the calls put on the way is worth at most this much. -/
def RtAction.weight : RtAction → Nat
  | .rsBroadcast event => 4 * (RtEvent.sibl event).weight
  | .wlSendPeerMessage event => (RtEvent.peer event).weight
  | _ => 0

def actionsWeight (actions : List RtAction) : Nat := (actions.map RtAction.weight).sum

@[simp] theorem actionsWeight_nil : actionsWeight [] = 0 := rfl

@[simp] theorem actionsWeight_cons (action : RtAction) (rest : List RtAction) :
    actionsWeight (action :: rest) = action.weight + actionsWeight rest := by
  rw [actionsWeight, List.map_cons, List.sum_cons, actionsWeight]

@[simp] theorem actionsWeight_append (first second : List RtAction) :
    actionsWeight (first ++ second) = actionsWeight first + actionsWeight second := by
  rw [actionsWeight, List.map_append, List.sum_append, actionsWeight, actionsWeight]

/-! ## What a handler does about requests -/

/-- A call that sends neither a request nor a loss. -/
def RtAction.calm : RtAction → Bool
  | .rsBroadcast (.sendNewGatewayRequest _) => false
  | .wlSendPeerMessage (.newGatewayRequest _) => false
  | .wlSendPeerMessage (.lost _) => false
  | _ => true

/-- Every call of a handler is calm, or it sends a request on, or spreads one, or starts one. -/
inductive RequestCalls : RtEvent → List RtAction → Prop where
  | calm {ev : RtEvent} {actions : List RtAction} (h : actions.all RtAction.calm = true) :
      RequestCalls ev actions
  | sendOn {hag hag' : HagNetworks} (more : hag.OneMore hag') :
      RequestCalls (.sibl (.sendNewGatewayRequest ⟨hag⟩))
        [.wlSendPeerMessage (.newGatewayRequest ⟨hag'⟩)]
  | spread {hag : HagNetworks} {routes : List RtAction} (h : routes.all RtAction.calm = true) :
      RequestCalls (.peer (.newGatewayRequest ⟨hag⟩))
        (routes ++ [.rsBroadcast (.sendNewGatewayRequest ⟨hag⟩)])
  | start {connection : Network} {o : Orientation} :
      RequestCalls (.peer (.lost connection))
        [.removeRoutesByOutput o, .rsBroadcast (.sendNewGatewayRequest ⟨HagNetworks.empty⟩)]

namespace Forwarder

theorem Peer.requestRoutes_calm (self : Orientation) (hag : HagNetworks) (l : List Network) :
    (Peer.requestRoutes self hag l).all RtAction.calm = true := by
  rw [Peer.requestRoutes_eq]
  split
  · rfl
  · rw [List.all_map]
    exact List.all_eq_true.mpr fun _ _ => rfl

variable {self : Orientation} {state : RtForwarderState}

theorem Sibling.requestCalls (haddr : state.nodeNetwork.addr ≠ 0)
    (event : RtSiblSendNewGatewayRequest) :
    RequestCalls (.sibl (.sendNewGatewayRequest event))
      (Sibling.onSendNewGatewayRequest state event).2 := by
  unfold Sibling.onSendNewGatewayRequest
  split
  · exact .calm rfl
  · split
    · exact .calm rfl
    · split
      · exact .calm rfl
      · split
        · exact .calm rfl
        next i hspot => exact .sendOn (HagNetworks.oneMore_set hspot haddr)

theorem Peer.requestCalls (event : RtPeerNewGatewayRequest) :
    RequestCalls (.peer (.newGatewayRequest event))
      (Peer.onNewGatewayRequest self state event).2 := by
  have hroutes := requestRoutes_calm self event.hagNetworks event.hagNetworks.toList
  unfold Peer.onNewGatewayRequest
  split
  · exact .spread hroutes
  · split
    · exact .calm hroutes
    · exact .spread hroutes

end Forwarder

theorem dispatchSibl_requestCalls {self : Orientation} {role : RtRole} {event : RtSiblEvent}
    {result : RtRole × List RtAction} (hd : dispatchSibl self role event = some result)
    (addressed : ∀ state, role = .forwarder state → state.nodeNetwork.addr ≠ 0) :
    RequestCalls (.sibl event) result.2 := by
  cases event with
  | onStart =>
      cases hd
      cases role <;> exact .calm rfl
  | updateDtr event =>
      cases hd
      cases role with
      | forwarder state =>
          simp only [RtRole.ofForwarder, Forwarder.Sibling.onUpdateDtr]
          split
          · exact .calm rfl
          · split
            · split <;> exact .calm rfl
            · exact .calm rfl
      | home state => exact .calm rfl
      | root state => exact .calm rfl
  | provision event =>
      cases hd
      cases role with
      | forwarder state =>
          simp only [RtRole.ofForwarder, Forwarder.Sibling.onProvision]
          split <;> exact .calm rfl
      | home state =>
          simp only [RtRole.ofHome, Home.onProvision]
          split <;> exact .calm rfl
      | root state => exact .calm rfl
  | sendNewGatewayRequest event =>
      cases hd
      cases role with
      | forwarder state => exact Forwarder.Sibling.requestCalls (addressed state rfl) event
      | home state => exact .calm rfl
      | root state => exact .calm rfl
  | newGatewayWinner event =>
      cases hd
      cases role with
      | forwarder state =>
          simp only [RtRole.ofForwarder, Forwarder.Sibling.onNewGatewayWinner]
          split <;> exact .calm rfl
      | home state => exact .calm rfl
      | root state => exact .calm rfl
  | unknown id => cases hd

theorem dispatchPeer_requestCalls {self : Orientation} {role : RtRole} {event : RtPeerEvent}
    {result : RtRole × List RtAction} (hd : dispatchPeer self role event = some result) :
    RequestCalls (.peer event) result.2 := by
  cases event with
  | handshake event =>
      cases hd
      cases role with
      | forwarder state =>
          simp only [RtRole.ofForwarder, Forwarder.Peer.onHandshake]
          split <;> exact .calm rfl
      | home state => exact .calm rfl
      | root state => exact .calm rfl
  | updateDtr event =>
      cases hd
      cases role with
      | forwarder state =>
          simp only [RtRole.ofForwarder, Forwarder.Peer.onUpdateDtr]
          split
          · exact .calm rfl
          · split <;> exact .calm rfl
      | home state => exact .calm rfl
      | root state => exact .calm rfl
  | newGatewayRequest event =>
      cases hd
      cases role with
      | forwarder state => exact Forwarder.Peer.requestCalls event
      | home state => exact .calm rfl
      | root state => exact .calm rfl
  | newGatewayResponse event =>
      cases hd
      cases role with
      | forwarder state =>
          simp only [RtRole.ofForwarder, Forwarder.Peer.onNewGatewayResponse]
          split <;> exact .calm rfl
      | home state => exact .calm rfl
      | root state => exact .calm rfl
  | connected connection =>
      cases hd
      cases role <;> exact .calm rfl
  | lost connection =>
      cases hd
      cases role with
      | forwarder state =>
          simp only [RtRole.ofForwarder, Forwarder.Peer.onPeerLost]
          split
          · exact .start
          · exact .calm rfl
      | home state => exact .calm rfl
      | root state => exact .calm rfl
  | unknown id => cases hd

theorem dispatch_requestCalls {self : Orientation} {role : RtRole} {ev : RtEvent}
    {result : RtRole × List RtAction} (hd : dispatch self role ev = some result)
    (addressed : ∀ state, role = .forwarder state → state.nodeNetwork.addr ≠ 0) :
    RequestCalls ev result.2 := by
  cases ev with
  | sibl event => exact dispatchSibl_requestCalls hd addressed
  | peer event => exact dispatchPeer_requestCalls hd

/-! ## What follows for the calls -/

theorem RtAction.weight_of_calm {action : RtAction} (h : action.calm = true) :
    action.weight = 0 := by
  cases action with
  | rsBroadcast event =>
      cases event with
      | sendNewGatewayRequest event => cases h
      | _ => rfl
  | wlSendPeerMessage event =>
      cases event with
      | newGatewayRequest event => cases h
      | lost connection => cases h
      | _ => rfl
  | _ => rfl

theorem actionsWeight_of_calm {actions : List RtAction}
    (h : actions.all RtAction.calm = true) : actionsWeight actions = 0 := by
  induction actions with
  | nil => rfl
  | cons action rest ih =>
      rw [List.all_cons, Bool.and_eq_true] at h
      rw [actionsWeight_cons, RtAction.weight_of_calm h.1, ih h.2]

namespace RequestCalls

variable {ev : RtEvent} {actions : List RtAction}

/-- A delivered request is worth one delivery more than what its handler sends. -/
theorem weight_le (calls : RequestCalls ev actions) :
    actionsWeight actions + ev.isRequest.toNat ≤ ev.weight := by
  cases calls with
  | calm h =>
      rw [actionsWeight_of_calm h, Nat.zero_add]
      cases hrequest : ev.isRequest with
      | false => exact Nat.zero_le _
      | true => exact RtEvent.weight_pos hrequest
  | @sendOn hag hag' more =>
      have hle := hag'.used_le
      have hused := more.used
      have hfree : hag.free = hag'.free + 1 := by
        unfold HagNetworks.free
        omega
      simp only [actionsWeight_cons, actionsWeight_nil, RtAction.weight, RtEvent.weight, hfree,
        siblWeight_succ, RtEvent.isRequest, Bool.toNat_true]
      omega
  | spread h =>
      simp only [actionsWeight_append, actionsWeight_of_calm h, actionsWeight_cons,
        actionsWeight_nil, RtAction.weight, RtEvent.weight, peerWeight, RtEvent.isRequest,
        Bool.toNat_true]
      omega
  | start =>
      simp only [actionsWeight_cons, actionsWeight_nil, RtAction.weight, RtEvent.weight,
        RtEvent.isRequest, Bool.toNat_false]
      omega

theorem not_mem_calm {event : RtPeerNewGatewayRequest} (h : actions.all RtAction.calm = true) :
    .newGatewayRequest event ∉ peerMessages actions := by
  intro hmem
  obtain ⟨action, haction, hmessage⟩ := List.mem_filterMap.mp hmem
  have hcalm := List.all_eq_true.mp h action haction
  cases action <;> cases hmessage
  cases hcalm

theorem not_mem_calm_sibl {event : RtSiblSendNewGatewayRequest}
    (h : actions.all RtAction.calm = true) :
    .sendNewGatewayRequest event ∉ siblEvents actions := by
  intro hmem
  obtain ⟨action, haction, hevent⟩ := List.mem_filterMap.mp hmem
  have hcalm := List.all_eq_true.mp h action haction
  cases action <;> cases hevent
  cases hcalm

theorem peerRequest (calls : RequestCalls ev actions) {hag' : HagNetworks}
    (hsent : .newGatewayRequest ⟨hag'⟩ ∈ peerMessages actions) :
    ∃ hag, ev = .sibl (.sendNewGatewayRequest ⟨hag⟩) ∧ hag.OneMore hag' := by
  cases calls with
  | calm h => exact absurd hsent (not_mem_calm h)
  | sendOn more =>
      cases List.mem_singleton.mp hsent
      exact ⟨_, rfl, more⟩
  | spread h =>
      rw [peerMessages_append, List.mem_append] at hsent
      rcases hsent with hroute | hlast
      · exact absurd hroute (not_mem_calm h)
      · cases hlast
  | start => cases hsent

/-- A sibling request carries the networks of the peer request that caused it, or none. -/
theorem siblRequest (calls : RequestCalls ev actions) {hag : HagNetworks}
    (hsent : .sendNewGatewayRequest ⟨hag⟩ ∈ siblEvents actions) :
    ev = .peer (.newGatewayRequest ⟨hag⟩) ∨
      ∃ connection, ev = .peer (.lost connection) ∧ hag = HagNetworks.empty := by
  cases calls with
  | calm h => exact absurd hsent (not_mem_calm_sibl h)
  | sendOn more => cases hsent
  | spread h =>
      rw [siblEvents_append, List.mem_append] at hsent
      rcases hsent with hroute | hlast
      · exact absurd hroute (not_mem_calm_sibl h)
      · cases List.mem_singleton.mp hlast
        exact .inl rfl
  | start =>
      cases List.mem_singleton.mp hsent
      exact .inr ⟨_, rfl, rfl⟩

end RequestCalls

theorem Forwarder.Sibling.onSendNewGatewayRequest_full (state : RtForwarderState)
    {hag : HagNetworks} (full : hag.used = maxHagNetworks) :
    Sibling.onSendNewGatewayRequest state ⟨hag⟩ = (state, []) := by
  have hnone := HagNetworks.findFreeSpot_eq_none.mpr full
  unfold Sibling.onSendNewGatewayRequest
  split
  · rfl
  · split
    · rfl
    · split
      · rfl
      · rw [hnone]

/-! ## The whole network -/

def flightWeight {ι : Type*} (flight : List (Port ι × RtEvent)) : Nat :=
  (flight.map fun m => m.2.weight).sum

/-- A delivery of a request. -/
def FloodLabel.isRequest {ι : Type*} : FloodLabel ι → Bool
  | .deliver _ ev => ev.isRequest
  | _ => false

namespace Flood

variable {ι : Type*}

def weight (t : Flood ι) : Nat := flightWeight t.flight

/-- Node networks have addresses. -/
def Addressed (t : Flood ι) : Prop :=
  ∀ p state, t.roles p = .forwarder state → state.nodeNetwork.addr ≠ 0

theorem flightWeight_append (first second : List (Port ι × RtEvent)) :
    flightWeight (first ++ second) = flightWeight first + flightWeight second := by
  rw [flightWeight, List.map_append, List.sum_append, flightWeight, flightWeight]

theorem flightWeight_broadcast (p : Port ι) (ev : RtSiblEvent) :
    flightWeight (p.2.siblings.map fun o => ((p.1, o), RtEvent.sibl ev)) =
      4 * (RtEvent.sibl ev).weight := by
  have hfour : p.2.siblings.length = 4 := by
    cases p.2 <;> decide
  rw [flightWeight, List.map_map, List.map_congr_left fun o _ => rfl]
  show (p.2.siblings.map fun _ => (RtEvent.sibl ev).weight).sum = _
  rw [List.map_const', List.sum_replicate, hfour]
  rfl

theorem flightWeight_broadcasts (p : Port ι) (events : List RtSiblEvent) :
    flightWeight (events.flatMap fun ev => p.2.siblings.map fun o => ((p.1, o), RtEvent.sibl ev)) =
      (events.map fun ev => 4 * (RtEvent.sibl ev).weight).sum := by
  induction events with
  | nil => rfl
  | cons ev rest ih =>
      rw [List.flatMap_cons, flightWeight_append, ih, flightWeight_broadcast, List.map_cons,
        List.sum_cons]

theorem flightWeight_messages (q : Port ι) (events : List RtPeerEvent) :
    flightWeight (events.map fun ev => (q, RtEvent.peer ev)) =
      (events.map fun ev => (RtEvent.peer ev).weight).sum := by
  rw [flightWeight, List.map_map]
  rfl

theorem actionsWeight_eq (actions : List RtAction) :
    actionsWeight actions =
      ((siblEvents actions).map fun ev => 4 * (RtEvent.sibl ev).weight).sum +
        ((peerMessages actions).map fun ev => (RtEvent.peer ev).weight).sum := by
  induction actions with
  | nil => rfl
  | cons action rest ih =>
      rw [actionsWeight_cons, ih, siblEvents_cons, peerMessages_cons, List.map_append,
        List.map_append, List.sum_append, List.sum_append]
      cases action with
      | rsBroadcast event =>
          simp only [RtAction.weight, RtAction.siblEvent, RtAction.peerMessage, Option.toList_some,
            Option.toList_none, List.map_cons, List.map_nil, List.sum_cons, List.sum_nil]
          omega
      | wlSendPeerMessage event =>
          simp only [RtAction.weight, RtAction.siblEvent, RtAction.peerMessage, Option.toList_some,
            Option.toList_none, List.map_cons, List.map_nil, List.sum_cons, List.sum_nil]
          omega
      | _ =>
          simp only [RtAction.weight, RtAction.siblEvent, RtAction.peerMessage,
            Option.toList_none, List.map_nil, List.sum_nil]
          omega

theorem flightWeight_sent (t : Flood ι) (p : Port ι) (actions : List RtAction) :
    flightWeight (t.sent p actions) ≤ actionsWeight actions := by
  rw [sent, flightWeight_append, flightWeight_broadcasts, actionsWeight_eq]
  apply Nat.add_le_add_left
  cases t.link p with
  | none => exact Nat.zero_le _
  | some q => exact (flightWeight_messages q _).le

variable [DecidableEq ι]

theorem flightWeight_erase {flight : List (Port ι × RtEvent)} {p : Port ι} {ev : RtEvent}
    (h : (p, ev) ∈ flight) :
    flightWeight flight = ev.weight + flightWeight (flight.erase (p, ev)) := by
  have hperm := (List.perm_cons_erase h).map fun m => m.2.weight
  rw [flightWeight, hperm.sum_eq, List.map_cons, List.sum_cons, flightWeight]

/-- No step makes what is in flight worth more, and the delivery of a request makes it worth
less. -/
theorem step_weight {t u : Flood ι} {label : FloodLabel ι} (addressed : t.Addressed)
    (hstep : t.step label = some u) :
    u.weight + label.isRequest.toNat ≤ t.weight := by
  cases label with
  | deliver p ev =>
      obtain ⟨hmem, result, hd, rfl⟩ := step_deliver hstep
      have hresult := (dispatch_requestCalls hd (addressed p)).weight_le
      have hsent := flightWeight_sent t p result.2
      have herase := flightWeight_erase hmem
      show flightWeight (t.flight.erase (p, ev) ++ t.sent p result.2) + ev.isRequest.toNat ≤
        flightWeight t.flight
      rw [flightWeight_append]
      omega
  | other p role =>
      cases hstep
      exact Nat.le_refl _
  | relink link =>
      cases hstep
      exact Nat.le_refl _

end Flood

/-! ## No end without an end of requests -/

/-- The flood of gateway requests dies out in every network of boards whose node networks have
addresses, whatever else happens to the boards and the links. A request that a board sends to
its peer has one more slot in use than the one it got; with no free slot it is dropped. -/
theorem gatewayRequests_dieOut {ι : Type*} [DecidableEq ι] (states : Nat → Flood ι)
    (labels : Nat → FloodLabel ι)
    (run : (floodMachine ι).Endless (fun t _ => t.Addressed) states labels) :
    (∃ n, ∀ m, n ≤ m → (labels m).isRequest = false) ∧
      (∀ n p ev result, labels n = .deliver p ev →
        dispatch p.2 ((states n).roles p) ev = some result →
          (∀ hag', .newGatewayRequest ⟨hag'⟩ ∈ peerMessages result.2 →
            ∃ hag, ev = .sibl (.sendNewGatewayRequest ⟨hag⟩) ∧ hag.OneMore hag') ∧
          ∀ hag, .sendNewGatewayRequest ⟨hag⟩ ∈ siblEvents result.2 →
            ev = .peer (.newGatewayRequest ⟨hag⟩) ∨
              ∃ connection, ev = .peer (.lost connection) ∧ hag = HagNetworks.empty) ∧
      ∀ (state : RtForwarderState) (hag : HagNetworks), hag.used = maxHagNetworks →
        Forwarder.Sibling.onSendNewGatewayRequest state ⟨hag⟩ = (state, []) := by
  refine ⟨?_, ?_, ?_⟩
  · apply run.eventually_not Flood.weight
    intro t label u _ addressed hstep
    exact Flood.step_weight addressed hstep
  · intro n p ev result _ hd
    have calls := dispatch_requestCalls hd (run.guarded n p)
    exact ⟨fun _ hsent => calls.peerRequest hsent, fun _ hsent => calls.siblRequest hsent⟩
  · intro state hag full
    exact Forwarder.Sibling.onSendNewGatewayRequest_full state full

/-! ## A request that goes round a cycle -/

/-- Two nodes with two links between them. -/
def cycleLink : Port Bool → Option (Port Bool)
  | (i, .north) => some (!i, .south)
  | (i, .south) => some (!i, .north)
  | _ => none

def cycleNetwork (i : Bool) : Network :=
  if i then ⟨0x0a200000, 0xffe00000⟩ else ⟨0x0a400000, 0xffe00000⟩

/-- A connected board that waits for no gateway. -/
def quietRole (i : Bool) : RtRole := .forwarder
  { createForwarderCore with
    nodeNetwork := cycleNetwork i
    localState := .connected
    globalState := .withNetwork }

def cycleRequest : Flood Bool where
  roles p := quietRole p.1
  link := cycleLink
  flight := [((false, .north), .sibl (.sendNewGatewayRequest ⟨HagNetworks.empty⟩))]

/-- The networks that the request has gone through. -/
def cycleHag : Nat → HagNetworks
  | 0 => HagNetworks.empty
  | n + 1 => (cycleHag n).setIfInBounds n (cycleNetwork (n % 2 = 1))

/-- The request goes round, finds its first board reset and is sent on by it once more; the next
board has still the request of the first round and drops it. -/
def cycleLabels : List (FloodLabel Bool) :=
  [.deliver (false, .north) (.sibl (.sendNewGatewayRequest ⟨cycleHag 0⟩)),
    .deliver (true, .south) (.peer (.newGatewayRequest ⟨cycleHag 1⟩)),
    .deliver (true, .north) (.sibl (.sendNewGatewayRequest ⟨cycleHag 1⟩)),
    .deliver (false, .south) (.peer (.newGatewayRequest ⟨cycleHag 2⟩)),
    .other (false, .north) (quietRole false),
    .deliver (false, .north) (.sibl (.sendNewGatewayRequest ⟨cycleHag 2⟩)),
    .deliver (true, .south) (.peer (.newGatewayRequest ⟨cycleHag 3⟩))]

/-- `Flood.Addressed` of the boards of two nodes, by computation. -/
def Flood.allAddressed (t : Flood Bool) : Bool :=
  [false, true].all fun i => Orientation.all.all fun o =>
    match t.roles (i, o) with
    | .forwarder state => state.nodeNetwork.addr ≠ 0
    | _ => true

theorem Flood.addressed_of_all {t : Flood Bool} (h : t.allAddressed = true) : t.Addressed := by
  rintro ⟨i, o⟩ state hrole
  have hnode := List.all_eq_true.mp h i (by cases i <;> decide)
  have hboard := List.all_eq_true.mp hnode o (Orientation.mem_all o)
  rw [hrole] at hboard
  exact of_decide_eq_true hboard

theorem cycleLabels_run : ((floodMachine Bool).runWith (fun t _ => t.allAddressed) cycleRequest
    cycleLabels).isSome = true := by decide

/-- The links stay up for ever after, and no request is handled any more. -/
theorem gatewayRequests_dieOut_returned :
    ∃ states labels, (floodMachine Bool).Endless (fun t _ => t.Addressed) states labels ∧
      states 0 = cycleRequest ∧ (∀ n l, cycleLabels[n]? = some l → labels n = l) ∧
      ∃ n, ∀ m, n ≤ m → (labels m).isRequest = false := by
  obtain ⟨states, labels, run, hstart, hlabels⟩ :=
    Machine.Endless.exists_of_runWith (.relink cycleLink)
      (Option.some_get cycleLabels_run).symm (by decide) rfl
  have addressed : (floodMachine Bool).Endless (fun t _ => t.Addressed) states labels :=
    ⟨fun n => Flood.addressed_of_all (run.guarded n), run.step⟩
  exact ⟨states, labels, addressed, hstart, hlabels,
    (gatewayRequests_dieOut states labels addressed).1⟩

end I4A
