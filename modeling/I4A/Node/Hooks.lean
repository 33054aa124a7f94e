import I4A.Node.Hearing
import I4A.Routing.AddressPlan

/-! # Routing hooks

`routing_hooks.c`. The forwarders of a node decide by the shared routing table, the
center board by a mask test on its own subnet. A packet that a board hands to the
SPI ring comes to the next board, whose hook decides again.
-/

namespace I4A

/-! ## The boards' devices -/

/-- `Device.mode`. -/
inductive DeviceMode where
  | nan | accessPoint | station
  deriving DecidableEq, Repr

/-- What `device_is_point_to_point_message` reads. -/
structure Device where
  mode : DeviceMode
  apNetwork : Network
  staNetwork : Network
  deriving DecidableEq, Repr

/-- `device_is_point_to_point_message`. -/
def deviceIsPointToPointMessage (device : Device) (dst : BitVec 32) : Bool :=
  match device.mode with
  | .accessPoint => device.apNetwork.Contains dst
  | .station => device.staNetwork.Contains dst
  | .nan => false

/-- `DEFAULT_SUBNET` and `DEFAULT_MASK`. -/
def defaultSettings : Network := ⟨0x00000000, 0xFFFFFFFF⟩

/-- `node_device_subnet` and `node_device_mask` after a call of the routing module;
`node_set_as_ap` starts with `node_set_network_settings`. -/
def RtAction.settings (settings : Network) : RtAction → Network
  | .wlEnableApMode network => network
  | .nodeSetNetworkSettings network => network
  | _ => settings

/-! ## The hooks -/

/-- The two netifs a hook can return, besides `NULL`. -/
inductive Netif where
  | wifi | spi
  deriving DecidableEq, Repr

/-- `routing_hook_root_center`; `subnet` is what `node_is_packet_for_this_subnet` reads. -/
def routingHookRootCenter (device : Device) (subnet : Network) (_src dst : BitVec 32) :
    Option Netif :=
  if deviceIsPointToPointMessage device dst then some .wifi
  else if subnet.Contains dst then some .spi
  else some .wifi

/-- `routing_hook_forwarder`. -/
def routingHookForwarder (device : Device) (board : Routing) (src dst : BitVec 32) :
    Option Netif :=
  if deviceIsPointToPointMessage device dst then some .wifi
  else
    match rtDoRoute board src dst with
    | .routeWifi => some .wifi
    | .routeSpi => some .spi
    | .routeNone => none

/-- `routing_hook_home`. -/
def routingHookHome (subnet : Network) (_src dst : BitVec 32) : Option Netif :=
  if subnet.Contains dst then some .wifi else some .spi

/-! ## The node -/

/-- A node with the network settings of its boards. -/
structure HookedNode where
  node : Node
  settings : Orientation → Network

inductive HookedLabel where
  | sibl (o : Orientation)
  | peer (o : Orientation) (ev : RtPeerEvent)
  /-- `rt_on_tick` of the center board. -/
  | tick (dtMs : BitVec 32)

namespace HookedNode

/-- The root's node as `app_main` leaves it; the center board is an access point already. -/
def startRoot (network : Network) : HookedNode where
  node := .start (Node.rootRoles network)
  settings := fun o => if o = .center then network else defaultSettings

/-- Any other node. -/
def startHome : HookedNode where
  node := .start Node.homeRoles
  settings := fun _ => defaultSettings

variable (n : HookedNode)

/-- A handler's result on board `o`. -/
def act (o : Orientation) (result : RtRole × List RtAction) : HookedNode where
  node := n.node.act o result
  settings := Function.update n.settings o (result.2.foldl RtAction.settings (n.settings o))

def step : HookedLabel → Option HookedNode
  | .sibl o => (n.node.siblResult o).map fun r =>
      ({ n with node := n.node.pop o r.2.2 } : HookedNode).act o (r.1, r.2.1)
  | .peer o ev => (n.node.peerResult o ev).map (n.act o)
  | .tick dtMs => some (n.act .center (rtOnTick (n.node.roles .center) dtMs))

/-- `node_do_routing` of board `o`, with the hook that `app_main` has set. -/
def nodeDoRouting (device : Orientation → Device) (src dst : BitVec 32) (o : Orientation) :
    Option Netif :=
  match o with
  | .center =>
      match n.node.roles .center with
      | .root _ => routingHookRootCenter (device .center) (n.settings .center) src dst
      | _ => routingHookHome (n.settings .center) src dst
  | o => routingHookForwarder (device o) (n.node.board o []) src dst

end HookedNode

def hookedMachine : Machine HookedNode HookedLabel := ⟨HookedNode.step⟩

/-- The board at which a packet leaves the ring, within as many hook decisions. -/
def leavesAt (hook : Orientation → Option Netif) : Nat → Orientation → Option Orientation
  | 0, _ => none
  | decisions + 1, o =>
      match hook o with
      | some .wifi => some o
      | some .spi => leavesAt hook decisions o.next
      | none => none

/-- Wherever the packet enters, it leaves within five decisions at the board the table
names. -/
def HookedNode.Leaves (n : HookedNode) (device : Orientation → Device) (src dst : BitVec 32) :
    Prop :=
  ∀ entry, ∃ o, leavesAt (n.nodeDoRouting device src dst) Orientation.nDevices entry = some o ∧
    routingTableRoute n.node.table dst = o.output

/-! ## Five decisions -/

theorem leavesAt_pass {hook : Orientation → Option Netif} {o : Orientation}
    (h : hook o = some .spi) (decisions : Nat) :
    leavesAt hook (decisions + 1) o = leavesAt hook decisions o.next := by
  rw [leavesAt, h]

theorem leavesAt_keep {hook : Orientation → Option Netif} {o : Orientation}
    (h : hook o = some .wifi) (decisions : Nat) :
    leavesAt hook (decisions + 1) o = some o := by
  rw [leavesAt, h]

theorem leavesAt_none {hook : Orientation → Option Netif} (h : ∀ o, hook o = some .spi)
    (decisions : Nat) (o : Orientation) : leavesAt hook decisions o = none := by
  induction decisions generalizing o with
  | zero => rfl
  | succ decisions ih => rw [leavesAt_pass (h o), ih]

/-- Every packet leaves at one board exactly if that board keeps it and the others pass it on. -/
theorem leavesAt_iff (hook : Orientation → Option Netif) (o : Orientation) :
    (∀ entry, leavesAt hook Orientation.nDevices entry = some o) ↔
      hook o = some .wifi ∧ ∀ o', o' ≠ o → hook o' = some .spi := by
  constructor
  · intro h
    have others : ∀ o', o' ≠ o → hook o' = some .spi := by
      intro o' hne
      have hleave := h o'
      simp only [Orientation.nDevices, leavesAt] at hleave
      cases hhook : hook o' with
      | none =>
          rw [hhook] at hleave
          cases hleave
      | some netif =>
          cases netif with
          | spi => rfl
          | wifi =>
              rw [hhook] at hleave
              exact absurd (Option.some.inj hleave) hne
    refine ⟨?_, others⟩
    have hleave := h o
    cases hhook : hook o with
    | none =>
        simp only [Orientation.nDevices, leavesAt, hhook] at hleave
        cases hleave
    | some netif =>
        cases netif with
        | wifi => rfl
        | spi =>
            have hall : ∀ o', hook o' = some .spi := by
              intro o'
              by_cases hne : o' = o
              · rw [hne, hhook]
              · exact others o' hne
            rw [leavesAt_none hall] at hleave
            cases hleave
  · rintro ⟨hkeep, hpass⟩ entry
    -- the ring brings the packet round, whatever the distance
    have hstep : ∀ decisions o', o' ≠ o →
        leavesAt hook (decisions + 1) o' = leavesAt hook decisions o'.next :=
      fun decisions o' hne => leavesAt_pass (hpass o' hne) decisions
    cases o <;> cases entry <;>
      simp [Orientation.nDevices, hstep, Orientation.next, leavesAt_keep hkeep]

/-! ## What the calls of a board do -/

/-- Every entry comes from the table before or from a call. -/
theorem tableAfter_used {table : RtRoutingTable} (h : table.Sorted) {actions : List RtAction}
    {e : RtRoutingEntry} (he : e ∈ (tableAfter table actions).used) :
    e ∈ table.used ∨ ∃ route output, .addGlobalRoute route output ∈ actions ∧
      route ≠ Network.zero ∧ e = ⟨route.addr, route.mask, output.output⟩ := by
  induction actions generalizing table with
  | nil => exact .inl he
  | cons action rest ih =>
      have later : ∀ {table' : RtRoutingTable}, table'.Sorted → e ∈ (tableAfter table' rest).used →
          e ∈ table'.used ∨ ∃ route output, .addGlobalRoute route output ∈ action :: rest ∧
            route ≠ Network.zero ∧ e = ⟨route.addr, route.mask, output.output⟩ := by
        intro table' h' he'
        rcases ih h' he' with hused | ⟨route, output, hmem, hrest⟩
        · exact .inl hused
        · exact .inr ⟨route, output, List.mem_cons_of_mem _ hmem, hrest⟩
      cases action with
      | addGlobalRoute route output =>
          rcases later (h.add _ _ _) he with hused | hcall
          · by_cases hzero : route = Network.zero
            · subst hzero
              have hsame : (routingTableAdd table 0 0 output.output).used = table.used := by
                rw [add_default]
                rfl
              exact .inl (hsame ▸ hused)
            · rcases h.mem_of_add (mt Network.eq_zero_iff.mpr hzero) hused with hold | hnew
              · exact .inl hold
              · exact .inr ⟨route, output, List.mem_cons_self, hzero, hnew⟩
          · exact .inr hcall
      | removeRoutesByOutput output =>
          rcases later (h.remove _) he with hused | hcall
          · rw [remove_used h.count_le] at hused
            exact .inl (List.mem_of_mem_filter hused)
          · exact .inr hcall
      | _ => exact later h he

/-- Calls that add routes to one board only set the gateway to it, or leave it. -/
theorem gatewayAfter_own {self : Orientation} {actions : List RtAction}
    (own : ∀ route output, .addGlobalRoute route output ∈ actions → output = self)
    (gateway : UInt8) :
    gatewayAfter gateway actions =
      if .addGlobalRoute Network.zero self ∈ actions then self.output else gateway := by
  induction actions generalizing gateway with
  | nil => rfl
  | cons action rest ih =>
      have hrest := ih fun route output h => own route output (List.mem_cons_of_mem _ h)
      rw [gatewayAfter_cons, hrest]
      by_cases hlater : RtAction.addGlobalRoute Network.zero self ∈ rest
      · rw [if_pos hlater, if_pos (List.mem_cons_of_mem _ hlater)]
      · rw [if_neg hlater]
        cases action with
        | addGlobalRoute route output =>
            have hself := own route output List.mem_cons_self
            subst hself
            by_cases hzero : route = Network.zero
            · subst hzero
              rw [RtAction.gateway, if_pos rfl, if_pos List.mem_cons_self]
            · have hnot : RtAction.addGlobalRoute Network.zero output ∉
                  RtAction.addGlobalRoute route output :: rest := by
                simp [hlater, Ne.symm hzero]
              rw [RtAction.gateway, if_neg hzero, if_neg hnot]
        | _ => simp [RtAction.gateway, hlater]

/-- What a forwarder's handler leaves: it adds routes to its own board only, and tells of a
network only together with a default route. -/
structure OwnCalls (o : Orientation) (result : RtRole × List RtAction) : Prop where
  role : ∃ state, result.1 = .forwarder state
  routes : ∀ route output, .addGlobalRoute route output ∈ result.2 → output = o
  provision : ∀ payload, .provision payload ∈ siblEvents result.2 →
    .addGlobalRoute Network.zero o ∈ result.2

theorem ownCalls_sibl {self : Orientation} {state : RtForwarderState} {ev : RtSiblEvent}
    {result : RtRole × List RtAction} (hd : dispatchSibl self (.forwarder state) ev = some result) :
    OwnCalls self result := by
  have hd' : dispatchSibl self (.forwarder state) ev = some (result.1, result.2) := hd
  have hsilent := (sibl_silent (.inr ⟨state, rfl⟩) hd').1
  have hroutes : (∃ state', result.1 = .forwarder state') ∧
      ∀ route output, .addGlobalRoute route output ∉ result.2 := by
    cases ev with
    | onStart =>
        cases hd
        simp
    | unknown id => cases hd
    | updateDtr event =>
        cases hd
        simp only [RtRole.ofForwarder, Forwarder.Sibling.onUpdateDtr]
        split
        · simp
        · split
          · split <;> simp
          · simp
    | provision event =>
        cases hd
        simp only [RtRole.ofForwarder, Forwarder.Sibling.onProvision]
        split <;> simp
    | sendNewGatewayRequest event =>
        cases hd
        simp only [RtRole.ofForwarder, Forwarder.Sibling.onSendNewGatewayRequest]
        split
        · simp
        · split
          · simp
          · split
            · simp
            · split <;> simp
    | newGatewayWinner event =>
        cases hd
        simp only [RtRole.ofForwarder, Forwarder.Sibling.onNewGatewayWinner]
        split <;> simp
  refine ⟨hroutes.1, fun route output h => absurd h (hroutes.2 route output), ?_⟩
  rw [hsilent]
  simp

theorem ownCalls_peer {self : Orientation} {state : RtForwarderState} {ev : RtPeerEvent}
    {result : RtRole × List RtAction} (hd : dispatchPeer self (.forwarder state) ev = some result) :
    OwnCalls self result := by
  cases ev with
  | unknown id => cases hd
  | handshake event =>
      cases hd
      simp only [RtRole.ofForwarder, Forwarder.Peer.onHandshake]
      split
      · exact ⟨⟨_, rfl⟩, by simp, by simp⟩
      · exact ⟨⟨_, rfl⟩, by simp, by simp [RtAction.siblEvent]⟩
  | updateDtr event =>
      cases hd
      simp only [RtRole.ofForwarder, Forwarder.Peer.onUpdateDtr]
      split
      · exact ⟨⟨_, rfl⟩, by simp, by simp⟩
      · split
        · exact ⟨⟨_, rfl⟩, by simp, by simp [RtAction.siblEvent]⟩
        · exact ⟨⟨_, rfl⟩, by simp, by simp⟩
  | newGatewayRequest event =>
      cases hd
      have hroutes : siblEvents (Forwarder.Peer.requestRoutes self event.hagNetworks
            event.hagNetworks.toList) = [] ∧
          ∀ route output, .addGlobalRoute route output ∈ Forwarder.Peer.requestRoutes self
            event.hagNetworks event.hagNetworks.toList → output = self := by
        rw [Forwarder.Peer.requestRoutes_eq]
        split
        · simp
        · refine ⟨siblEvents_routes _ self, fun route output h => ?_⟩
          obtain ⟨network, -, heq⟩ := List.mem_map.mp h
          cases heq
          rfl
      simp only [RtRole.ofForwarder, Forwarder.Peer.onNewGatewayRequest]
      split
      · exact ⟨⟨_, rfl⟩, by simpa using hroutes.2, by simp [hroutes.1, RtAction.siblEvent]⟩
      · split
        · exact ⟨⟨_, rfl⟩, hroutes.2, by simp [hroutes.1]⟩
        · exact ⟨⟨_, rfl⟩, by simpa using hroutes.2, by simp [hroutes.1, RtAction.siblEvent]⟩
  | newGatewayResponse event =>
      cases hd
      simp only [RtRole.ofForwarder, Forwarder.Peer.onNewGatewayResponse]
      split
      · exact ⟨⟨_, rfl⟩, by simp, by simp⟩
      · exact ⟨⟨_, rfl⟩, by simp, by simp [RtAction.siblEvent]⟩
  | connected connection =>
      cases hd
      exact ⟨⟨_, rfl⟩, by simp [RtRole.ofForwarder, Forwarder.Peer.onPeerConnected],
        by simp [RtRole.ofForwarder, Forwarder.Peer.onPeerConnected, RtAction.siblEvent]⟩
  | lost connection =>
      cases hd
      simp only [RtRole.ofForwarder, Forwarder.Peer.onPeerLost]
      split
      · exact ⟨⟨_, rfl⟩, by simp, by simp [RtAction.siblEvent]⟩
      · exact ⟨⟨_, rfl⟩, by simp, by simp [RtAction.siblEvent]⟩

/-! ## The invariant -/

namespace HookedNode

/-- The table names boards, and the center board only with its own subnet, once it has one. -/
structure Inv (n : HookedNode) (root : Option Network) : Prop where
  sorted : n.node.table.Sorted
  forwarders : ∀ o, o ≠ .center → ∃ state, n.node.roles o = .forwarder state
  center : (∃ state, n.node.roles .center = .root state ∧ root = some (n.settings .center)) ∨
    ∃ state, n.node.roles .center = .home state ∧ root = none ∧
      (state.isProvisioned = true ∨ (∃ o payload, .provision payload ∈ n.node.inbox o) →
        n.node.table.defaultGateway ≠ Orientation.center.output)
  gateway : ∃ o : Orientation, n.node.table.defaultGateway = o.output
  entries : ∀ e ∈ n.node.table.used,
    (∃ o : Orientation, o ≠ .center ∧ e.output = o.output) ∨
      n.node.roles .center = .home ⟨true⟩ ∧
        e = ⟨(n.settings .center).addr, (n.settings .center).mask, Orientation.center.output⟩

theorem startRoot_inv (network : Network) : (startRoot network).Inv (some network) where
  sorted := .init _
  forwarders o ho := by cases o <;> first | exact ⟨_, rfl⟩ | exact absurd rfl ho
  center := .inl ⟨_, rfl, rfl⟩
  gateway := ⟨.center, rfl⟩
  entries e he := by cases he

theorem startHome_inv : startHome.Inv none where
  sorted := .init _
  forwarders o ho := by cases o <;> first | exact ⟨_, rfl⟩ | exact absurd rfl ho
  center := by
    refine .inr ⟨createHomeCore, rfl, rfl, ?_⟩
    rintro (hprov | ⟨o, payload, hmem⟩)
    · cases hprov
    · simp [startHome, Node.start] at hmem
  gateway := ⟨.center, rfl⟩
  entries e he := by cases he

variable {n : HookedNode} {root : Option Network}

@[simp] theorem act_settings_self (n : HookedNode) (o : Orientation)
    (result : RtRole × List RtAction) :
    (n.act o result).settings o = result.2.foldl RtAction.settings (n.settings o) :=
  Function.update_self _ _ _

theorem act_settings_of_ne (n : HookedNode) {o o' : Orientation} (h : o' ≠ o)
    (result : RtRole × List RtAction) : (n.act o result).settings o' = n.settings o' :=
  Function.update_of_ne h _ _

/-- A forwarder's handler keeps it. -/
theorem Inv.actForwarder (inv : n.Inv root) {o : Orientation} (ho : o ≠ .center)
    {result : RtRole × List RtAction} (calls : OwnCalls o result) : (n.act o result).Inv root := by
  have hcenter : (n.act o result).node.roles .center = n.node.roles .center :=
    Node.act_roles_of_ne _ (Ne.symm ho) _
  have hsettings : (n.act o result).settings .center = n.settings .center :=
    act_settings_of_ne _ (Ne.symm ho) _
  have hgateway : (n.act o result).node.table.defaultGateway =
      if .addGlobalRoute Network.zero o ∈ result.2 then o.output
      else n.node.table.defaultGateway := by
    change (tableAfter n.node.table result.2).defaultGateway = _
    rw [tableAfter_defaultGateway, gatewayAfter_own calls.routes]
  constructor
  · exact tableAfter_sorted inv.sorted _
  · intro o' ho'
    by_cases hself : o' = o
    · subst hself
      obtain ⟨state, hstate⟩ := calls.role
      exact ⟨state, (Node.act_roles_self _ _ _).trans hstate⟩
    · obtain ⟨state, hstate⟩ := inv.forwarders o' ho'
      exact ⟨state, (Node.act_roles_of_ne _ hself _).trans hstate⟩
  · rw [hcenter, hsettings, hgateway]
    rcases inv.center with hroot | ⟨state, hstate, hnone, hmoved⟩
    · exact .inl hroot
    · refine .inr ⟨state, hstate, hnone, fun htold => ?_⟩
      split
      · exact fun h => ho (Orientation.output_injective h)
      · next hcall =>
        apply hmoved
        rcases htold with hprov | ⟨o', payload, hmem⟩
        · exact .inl hprov
        · refine .inr ⟨o', payload, ?_⟩
          by_cases hself : o' = o
          · subst hself
            simpa [HookedNode.act] using hmem
          · have hin : (n.act o result).node.inbox o' = n.node.inbox o' ++ siblEvents result.2 :=
              Node.act_inbox_of_ne _ hself _
            rw [hin, List.mem_append] at hmem
            exact hmem.resolve_right fun hnew => hcall (calls.provision payload hnew)
  · rw [hgateway]
    split
    · exact ⟨o, rfl⟩
    · exact inv.gateway
  · intro e he
    rw [hcenter, hsettings]
    rcases tableAfter_used inv.sorted he with hold | ⟨route, output, hmem, -, rfl⟩
    · exact inv.entries e hold
    · obtain rfl := calls.routes route output hmem
      exact .inl ⟨output, ho, rfl⟩

/-- The root's center board only ever adds the default route. -/
theorem Inv.actRoot (inv : n.Inv root) {state state' : RtRootState}
    (hroot : n.node.roles .center = .root state) {actions : List RtAction}
    (hroutes : ∀ route output, .addGlobalRoute route output ∈ actions →
      route = Network.zero ∧ output = .center)
    (hsettings : actions.foldl RtAction.settings (n.settings .center) = n.settings .center) :
    (n.act .center (.root state', actions)).Inv root := by
  have hset : (n.act .center (.root state', actions)).settings .center = n.settings .center :=
    (act_settings_self _ _ _).trans hsettings
  constructor
  · exact tableAfter_sorted inv.sorted _
  · intro o ho
    obtain ⟨s, hs⟩ := inv.forwarders o ho
    exact ⟨s, (Node.act_roles_of_ne _ ho _).trans hs⟩
  · rcases inv.center with ⟨s, -, hsubnet⟩ | ⟨s, hs, -⟩
    · exact .inl ⟨state', Node.act_roles_self _ _ _, by rw [hset, hsubnet]⟩
    · rw [hroot] at hs
      cases hs
  · change ∃ o : Orientation, (tableAfter n.node.table actions).defaultGateway = o.output
    rw [tableAfter_defaultGateway,
      gatewayAfter_own fun route output h => (hroutes route output h).2]
    split
    · exact ⟨.center, rfl⟩
    · exact inv.gateway
  · intro e he
    rcases tableAfter_used inv.sorted he with hold | ⟨route, output, hmem, hne, -⟩
    · rcases inv.entries e hold with hother | ⟨hhome, -⟩
      · exact .inl hother
      · rw [hroot] at hhome
        cases hhome
    · exact absurd (hroutes route output hmem).1 hne

/-- The home board's first provision adds the one route to the center board. -/
theorem Inv.actProvision (inv : n.Inv root)
    (hhome : n.node.roles .center = .home ⟨false⟩)
    (hmoved : n.node.table.defaultGateway ≠ Orientation.center.output) {subnet : Network}
    (hsubnet : subnet ≠ Network.zero) :
    (n.act .center (.home ⟨true⟩,
      [.addGlobalRoute subnet .center, .wlEnableApMode subnet])).Inv root := by
  have hgateway : (routingTableAdd n.node.table subnet.addr subnet.mask
      Orientation.center.output).defaultGateway = n.node.table.defaultGateway :=
    add_defaultGateway (mt Network.eq_zero_iff.mpr hsubnet) _ _
  have hrole : (n.act .center (.home ⟨true⟩,
      [.addGlobalRoute subnet .center, .wlEnableApMode subnet])).node.roles .center =
        .home ⟨true⟩ := Node.act_roles_self _ _ _
  have hset : (n.act .center (.home ⟨true⟩,
      [.addGlobalRoute subnet .center, .wlEnableApMode subnet])).settings .center = subnet :=
    act_settings_self _ _ _
  constructor
  · exact inv.sorted.add _ _ _
  · intro o ho
    obtain ⟨s, hs⟩ := inv.forwarders o ho
    exact ⟨s, (Node.act_roles_of_ne _ ho _).trans hs⟩
  · rcases inv.center with ⟨s, hs, -⟩ | ⟨s, -, hnone, -⟩
    · rw [hhome] at hs
      cases hs
    · refine .inr ⟨⟨true⟩, hrole, hnone, fun _ => ?_⟩
      exact fun h => hmoved (hgateway.symm.trans h)
  · obtain ⟨o, ho⟩ := inv.gateway
    exact ⟨o, hgateway.trans ho⟩
  · intro e he
    rw [hrole, hset]
    rcases inv.sorted.mem_of_add (mt Network.eq_zero_iff.mpr hsubnet) he with hold | hnew
    · rcases inv.entries e hold with hother | ⟨hprov, -⟩
      · exact .inl hother
      · rw [hhome] at hprov
        cases hprov
    · exact .inr ⟨rfl, hnew⟩

/-- Whatever else the home board handles. -/
theorem Inv.actHome (inv : n.Inv root) {state : RtHomeState}
    (hhome : n.node.roles .center = .home state) {actions : List RtAction}
    (htable : tableAfter n.node.table actions = n.node.table)
    (hsettings : actions.foldl RtAction.settings (n.settings .center) = n.settings .center)
    (hsilent : siblEvents actions = []) : (n.act .center (.home state, actions)).Inv root := by
  have hset : (n.act .center (.home state, actions)).settings .center = n.settings .center :=
    (act_settings_self _ _ _).trans hsettings
  have hrole : (n.act .center (.home state, actions)).node.roles .center =
      n.node.roles .center := (Node.act_roles_self _ _ _).trans hhome.symm
  have htab : (n.act .center (.home state, actions)).node.table = n.node.table := htable
  have hinbox : ∀ o, (n.act .center (.home state, actions)).node.inbox o = n.node.inbox o := by
    intro o
    by_cases ho : o = .center
    · subst ho
      exact Node.act_inbox_self _ _ _
    · have hin : (n.act .center (.home state, actions)).node.inbox o =
          n.node.inbox o ++ siblEvents actions := Node.act_inbox_of_ne _ ho _
      rw [hin, hsilent, List.append_nil]
  constructor
  · rw [htab]
    exact inv.sorted
  · intro o ho
    obtain ⟨s, hs⟩ := inv.forwarders o ho
    exact ⟨s, (Node.act_roles_of_ne _ ho _).trans hs⟩
  · simp only [hrole, hset, htab, hinbox]
    exact inv.center
  · rw [htab]
    exact inv.gateway
  · rw [htab, hrole, hset]
    exact inv.entries

theorem Inv.pop (inv : n.Inv root) {o : Orientation} {ev : RtSiblEvent}
    {rest : List RtSiblEvent} (hin : n.node.inbox o = ev :: rest) :
    Inv { n with node := n.node.pop o rest } root := by
  refine ⟨inv.sorted, inv.forwarders, ?_, inv.gateway, inv.entries⟩
  rcases inv.center with hroot | ⟨state, hstate, hnone, hmoved⟩
  · exact .inl hroot
  · refine .inr ⟨state, hstate, hnone, fun htold => hmoved ?_⟩
    rcases htold with hprov | ⟨o', payload, hmem⟩
    · exact .inl hprov
    · exact .inr ⟨o', payload, Node.mem_of_mem_pop hin hmem⟩

/-- The center board handles a sibling event. -/
theorem Inv.siblCenter (inv : n.Inv root) {ev : RtSiblEvent} {rest : List RtSiblEvent}
    (hin : n.node.inbox .center = ev :: rest) {result : RtRole × List RtAction}
    (hd : dispatchSibl .center (n.node.roles .center) ev = some result) :
    (({ n with node := n.node.pop .center rest } : HookedNode).act .center result).Inv root := by
  have popped := inv.pop hin
  rcases inv.center with ⟨state, hstate, -⟩ | ⟨state, hstate, -, hmoved⟩
  · rw [hstate] at hd
    cases ev with
    | onStart =>
        cases hd
        refine popped.actRoot hstate ?_ rfl
        simp [Root.onStart]
    | unknown id => cases hd
    | _ =>
        cases hd
        refine popped.actRoot hstate ?_ rfl
        simp [Root.onNewGatewayRequest]
  · rw [hstate] at hd
    cases ev with
    | onStart =>
        cases hd
        exact popped.actHome hstate rfl rfl rfl
    | provision payload =>
        cases hd
        obtain ⟨prov⟩ := state
        cases prov with
        | true => exact popped.actHome hstate rfl rfl rfl
        | false =>
            have hgate := hmoved (.inr ⟨.center, payload, by simp [hin]⟩)
            exact popped.actProvision hstate hgate (getNodeSubnet_ne_zero _ _)
    | unknown id => cases hd
    | _ =>
        cases hd
        exact popped.actHome hstate rfl rfl rfl

theorem Inv.step (inv : n.Inv root) {l : HookedLabel} {n' : HookedNode}
    (hs : hookedMachine.step n l = some n') : n'.Inv root := by
  have hstep : n.step l = some n' := hs
  cases l with
  | sibl o =>
      simp only [HookedNode.step, Node.siblResult, Option.map_eq_some_iff] at hstep
      obtain ⟨⟨role, actions, rest⟩, hresult, rfl⟩ := hstep
      cases hin : n.node.inbox o with
      | nil =>
          rw [hin] at hresult
          cases hresult
      | cons ev rest' =>
          rw [hin] at hresult
          simp only [Option.map_eq_some_iff, Prod.mk.injEq] at hresult
          obtain ⟨⟨role', actions'⟩, hd, rfl, rfl, rfl⟩ := hresult
          by_cases ho : o = .center
          · subst ho
            exact inv.siblCenter hin hd
          · obtain ⟨state, hstate⟩ := inv.forwarders o ho
            rw [hstate] at hd
            exact (inv.pop hin).actForwarder ho (ownCalls_sibl hd)
  | peer o ev =>
      simp only [HookedNode.step, Node.peerResult, Option.map_eq_some_iff] at hstep
      obtain ⟨result, hresult, rfl⟩ := hstep
      split at hresult
      · by_cases ho : o = .center
        · subst ho
          rcases inv.center with ⟨state, hstate, -⟩ | ⟨state, hstate, -⟩
          · rw [hstate] at hresult
            cases ev <;> cases hresult <;> exact inv.actRoot hstate (by simp) rfl
          · rw [hstate] at hresult
            cases ev <;> cases hresult <;> exact inv.actHome hstate rfl rfl rfl
        · obtain ⟨state, hstate⟩ := inv.forwarders o ho
          rw [hstate] at hresult
          exact inv.actForwarder ho (ownCalls_peer hresult)
      · cases hresult
  | tick dtMs =>
      simp only [HookedNode.step, Option.some.injEq] at hstep
      subst hstep
      rcases inv.center with ⟨state, hstate, -⟩ | ⟨state, hstate, -⟩
      · rw [hstate, rtOnTick, RtRole.ofRoot, Root.onTick]
        split
        · exact inv.actRoot hstate (by simp) rfl
        · split
          · exact inv.actRoot hstate (by simp) rfl
          · exact inv.actRoot hstate (by simp) rfl
      · rw [hstate]
        exact inv.actHome hstate rfl rfl rfl

theorem Inv.reached {start : HookedNode} (hstart : start.Inv root)
    (run : hookedMachine.Reaches start n) : n.Inv root := by
  induction run with
  | refl => exact hstart
  | tail _ _ hs ih => exact ih.step hs

/-! ## What the hooks decide -/

/-- The address is in the network of a point-to-point link of a board that tests for it; the
home board's access point serves the house and is no such link. -/
def InLink (n : HookedNode) (device : Orientation → Device) (dst : BitVec 32) : Prop :=
  ∃ o, (o ≠ .center ∨ ∃ state, n.node.roles .center = .root state) ∧
    deviceIsPointToPointMessage (device o) dst = true

variable {device : Orientation → Device} {src dst : BitVec 32}

theorem nodeDoRouting_forwarder (nolink : ¬ n.InLink device dst) {o : Orientation}
    (ho : o ≠ .center) :
    n.nodeDoRouting device src dst o =
      some (if routingTableRoute n.node.table dst = o.output then .wifi else .spi) := by
  have hlink : deviceIsPointToPointMessage (device o) dst = false :=
    Bool.eq_false_iff.mpr fun h => nolink ⟨o, .inl ho, h⟩
  have hhook : n.nodeDoRouting device src dst o =
      routingHookForwarder (device o) (n.node.board o []) src dst := by
    cases o <;> first | rfl | exact absurd rfl ho
  rw [hhook, routingHookForwarder, hlink, rtDoRoute]
  by_cases hroute : routingTableRoute n.node.table dst = o.output <;>
    simp [Node.board, hroute]

theorem nodeDoRouting_root (nolink : ¬ n.InLink device dst) {state : RtRootState}
    (hroot : n.node.roles .center = .root state) :
    n.nodeDoRouting device src dst .center =
      some (if (n.settings .center).Contains dst then .spi else .wifi) := by
  have hlink : deviceIsPointToPointMessage (device .center) dst = false :=
    Bool.eq_false_iff.mpr fun h => nolink ⟨.center, .inr ⟨state, hroot⟩, h⟩
  simp only [nodeDoRouting, hroot, routingHookRootCenter, hlink, Bool.false_eq_true, if_false]
  split <;> rfl

theorem nodeDoRouting_home {state : RtHomeState} (hhome : n.node.roles .center = .home state) :
    n.nodeDoRouting device src dst .center =
      some (if (n.settings .center).Contains dst then .wifi else .spi) := by
  simp only [nodeDoRouting, hhome, routingHookHome]
  split <;> rfl

theorem Inv.route (inv : n.Inv root) (dst : BitVec 32) :
    ∃ o : Orientation, routingTableRoute n.node.table dst = o.output := by
  rw [routingTableRoute]
  cases hfind : n.node.table.used.find? (·.covers dst) with
  | none => exact inv.gateway
  | some e =>
      rcases inv.entries e (List.mem_of_find?_eq_some hfind) with ⟨o, -, ho⟩ | ⟨-, rfl⟩
      · exact ⟨o, ho⟩
      · exact ⟨.center, rfl⟩

/-- Only the center board can disagree with the table. -/
theorem Inv.leaves_iff (inv : n.Inv root) (nolink : ¬ n.InLink device dst) :
    n.Leaves device src dst ↔
      (n.nodeDoRouting device src dst .center = some .wifi ↔
        routingTableRoute n.node.table dst = Orientation.center.output) := by
  obtain ⟨o, ho⟩ := inv.route dst
  have hleaves : n.Leaves device src dst ↔
      ∀ entry, leavesAt (n.nodeDoRouting device src dst) Orientation.nDevices entry = some o := by
    refine forall_congr' fun entry => ?_
    constructor
    · rintro ⟨o', hleave, ho'⟩
      rw [hleave, Orientation.output_injective (ho'.symm.trans ho)]
    · exact fun hleave => ⟨o, hleave, ho⟩
  have hforwarder : ∀ o', o' ≠ .center → n.nodeDoRouting device src dst o' =
      some (if o = o' then .wifi else .spi) := by
    intro o' hne
    rw [nodeDoRouting_forwarder nolink hne, ho]
    simp only [Orientation.output_inj]
  have hcenter : n.nodeDoRouting device src dst .center = some .wifi ∨
      n.nodeDoRouting device src dst .center = some .spi := by
    rcases inv.center with ⟨state, hstate, -⟩ | ⟨state, hstate, -⟩
    · rw [nodeDoRouting_root nolink hstate]
      split
      · exact .inr rfl
      · exact .inl rfl
    · rw [nodeDoRouting_home hstate]
      split
      · exact .inl rfl
      · exact .inr rfl
  rw [hleaves, leavesAt_iff, ho, Orientation.output_inj]
  by_cases hoc : o = .center
  · subst hoc
    simp only [iff_true, and_iff_left_iff_imp]
    intro _ o' hne
    rw [hforwarder o' hne, if_neg (Ne.symm hne)]
  · simp only [hoc, iff_false]
    constructor
    · intro h
      rw [h.2 .center (Ne.symm hoc)]
      decide
    · intro hpass
      refine ⟨by rw [hforwarder o hoc, if_pos rfl], fun o' hne => ?_⟩
      by_cases hoc' : o' = .center
      · subst hoc'
        exact hcenter.resolve_left hpass
      · rw [hforwarder o' hoc', if_neg (Ne.symm hne)]

/-- In the root's node the table names the center board where no entry covers the address. -/
theorem Inv.route_root (inv : n.Inv root) {state : RtRootState}
    (hroot : n.node.roles .center = .root state) :
    routingTableRoute n.node.table dst = Orientation.center.output ↔
      ¬ ((∃ e ∈ n.node.table.used, e.covers dst = true) ∨
        n.node.table.defaultGateway ≠ Orientation.center.output) := by
  rw [routingTableRoute]
  cases hfind : n.node.table.used.find? (·.covers dst) with
  | none =>
      have hnone : ¬ ∃ e ∈ n.node.table.used, e.covers dst = true := by
        rintro ⟨e, he, hcov⟩
        exact List.find?_eq_none.mp hfind e he hcov
      simp [hnone]
  | some e =>
      have hmem := List.mem_of_find?_eq_some hfind
      have hcov : e.covers dst = true := by simpa using List.find?_some hfind
      rcases inv.entries e hmem with ⟨o, hne, ho⟩ | ⟨hhome, -⟩
      · refine iff_of_false ?_ (fun h => h (.inl ⟨e, hmem, hcov⟩))
        exact fun h => hne (Orientation.output_injective (ho.symm.trans h))
      · rw [hroot] at hhome
        cases hhome

/-- In another node it names the center board exactly for what the home's entry gives it. -/
theorem Inv.route_home (inv : n.Inv root) (hhome : n.node.roles .center = .home ⟨true⟩) :
    routingTableRoute n.node.table dst = Orientation.center.output ↔
      (n.settings .center).Contains dst ∧
        ⟨(n.settings .center).addr, (n.settings .center).mask, Orientation.center.output⟩ ∈
          n.node.table.used ∧
        ∀ e ∈ n.node.table.used, e.covers dst = true → e.mask ≤ (n.settings .center).mask := by
  constructor
  · intro hroute
    have hmoved : n.node.table.defaultGateway ≠ Orientation.center.output := by
      rcases inv.center with ⟨state, hstate, -⟩ | ⟨state, hstate, -, hmoved⟩
      · rw [hhome] at hstate
        cases hstate
      · rw [hhome] at hstate
        cases hstate
        exact hmoved (.inl rfl)
    rw [routingTableRoute] at hroute
    cases hfind : n.node.table.used.find? (·.covers dst) with
    | none =>
        rw [hfind] at hroute
        exact absurd hroute hmoved
    | some e =>
        rw [hfind] at hroute
        obtain ⟨hcov, before, behind, hused, hmiss⟩ := List.find?_eq_some_iff_append.mp hfind
        have hmem := List.mem_of_find?_eq_some hfind
        rcases inv.entries e hmem with ⟨o, hne, ho⟩ | ⟨-, rfl⟩
        · exact absurd (Orientation.output_injective (ho.symm.trans hroute)) hne
        · refine ⟨by simpa [RtRoutingEntry.covers, Network.Contains] using hcov, hmem, ?_⟩
          intro e' he' hcov'
          have hord := inv.sorted.ordered
          rw [hused] at he' hord
          rcases List.mem_append.mp he' with hb | hb
          · simpa [hcov'] using hmiss e' hb
          · rcases List.mem_cons.mp hb with rfl | hb
            · exact BitVec.le_refl _
            · exact (List.pairwise_cons.mp (List.pairwise_append.mp hord).2.1).1 e' hb
  · rintro ⟨hin, hmem, hlongest⟩
    have hcov : RtRoutingEntry.covers ⟨(n.settings .center).addr, (n.settings .center).mask,
        Orientation.center.output⟩ dst = true := by
      simpa [RtRoutingEntry.covers, Network.Contains] using hin
    exact inv.sorted.route_entry hmem hcov hlongest

end HookedNode

open HookedNode

/-- Every packet leaves the ring at the board the table names exactly if

* in the root's node, the address is in the root's network where an entry covers it or the
  gateway is not the center board, and outside where none does and it is;
* in another node, the home board's route has kept its place in the table for the address, if
  it is in the home board's subnet. -/
theorem hooks_leave_iff (device : Orientation → Device) (src dst : BitVec 32) (n : HookedNode)
    (nolink : ¬ n.InLink device dst) :
    (∀ network, hookedMachine.Reaches (startRoot network) n →
      (n.Leaves device src dst ↔
        (network.Contains dst ↔ (∃ e ∈ n.node.table.used, e.covers dst = true) ∨
          n.node.table.defaultGateway ≠ Orientation.center.output))) ∧
      (hookedMachine.Reaches startHome n → n.node.roles .center = .home ⟨true⟩ →
        (n.Leaves device src dst ↔
          ((n.settings .center).Contains dst →
            ⟨(n.settings .center).addr, (n.settings .center).mask,
                Orientation.center.output⟩ ∈ n.node.table.used ∧
              ∀ e ∈ n.node.table.used, e.covers dst = true →
                e.mask ≤ (n.settings .center).mask))) := by
  constructor
  · intro network run
    have inv := (startRoot_inv network).reached run
    rcases inv.center with ⟨state, hroot, hsubnet⟩ | ⟨state, -, hnone, -⟩
    · rw [inv.leaves_iff nolink, nodeDoRouting_root nolink hroot, inv.route_root hroot,
        ← Option.some.inj hsubnet]
      by_cases hin : network.Contains dst
      · simp only [hin, if_true, Option.some.injEq, reduceCtorEq, false_iff, not_not, true_iff]
      · simp only [hin, if_false, true_iff, false_iff]
    · cases hnone
  · intro run hhome
    have inv := startHome_inv.reached run
    rw [inv.leaves_iff nolink, nodeDoRouting_home hhome, inv.route_home hhome]
    by_cases hin : (n.settings .center).Contains dst
    · simp only [hin, if_true, true_and, true_iff, true_implies]
    · simp [hin]

/-! ## Two nodes -/

/-- Access points with the links of a node that owns 10.0.0.0/8. -/
def linkDevices : Orientation → Device
  | .center => ⟨.accessPoint, ⟨0x0afffffc#32, 0xfffffffc#32⟩, Network.zero⟩
  | o => ⟨.accessPoint, ⟨(getNodeSubnet ⟨0x0a000000#32, 0xff000000#32⟩ o).addr, 0xfffffffc#32⟩,
      Network.zero⟩

/-- North's handshake, and the home board's provision. -/
def provisionHome : List HookedLabel :=
  [.sibl .north, .sibl .center,
    .peer .north (.handshake ⟨⟨0x0a000000#32, 0xff000000#32⟩, ⟨0x0a200000#32, 0xffe00000#32⟩, 1⟩),
    .sibl .center]

theorem provisionHome_runs : (hookedMachine.run startHome provisionHome).isSome = true := by
  decide

/-- A packet for the house leaves at the home board. -/
theorem hooks_leave_house :
    ((hookedMachine.run startHome provisionHome).get provisionHome_runs).Leaves linkDevices
      0x08080808#32 0x0a340001#32 := by
  refine ((hooks_leave_iff linkDevices _ _ _ ?_).2
    (Machine.reaches_of_run (Option.some_get provisionHome_runs).symm) (by decide)).mpr
      fun _ => ⟨by decide, by decide⟩
  rintro ⟨o, -, hlink⟩
  revert hlink
  cases o <;> decide

/-- The root's boards handle what the root's `on_start` leaves. -/
def provisionRoot : List HookedLabel :=
  [.sibl .center, .sibl .north, .sibl .north, .sibl .south, .sibl .south, .sibl .east,
    .sibl .east, .sibl .west, .sibl .west]

theorem provisionRoot_runs :
    (hookedMachine.run (startRoot ⟨0x0a000000#32, 0xff000000#32⟩) provisionRoot).isSome =
      true := by decide

/-- A packet for a part of 10.0.0.0/8 that nobody has been given goes round and round. -/
theorem hooks_circulate :
    ¬ ∀ (device : Orientation → Device) (src dst : BitVec 32) (n : HookedNode),
      hookedMachine.Reaches (startRoot ⟨0x0a000000#32, 0xff000000#32⟩) n →
        ¬ n.InLink device dst → n.Leaves device src dst := by
  intro h
  have leaves := h linkDevices 0x08080808#32 0x0ac00001#32 _
    (Machine.reaches_of_run (Option.some_get provisionRoot_runs).symm) (by
      rintro ⟨o, -, hlink⟩
      revert hlink
      cases o <;> decide)
  obtain ⟨o, hleave, -⟩ := leaves .north
  revert hleave
  cases o <;> decide

end I4A
