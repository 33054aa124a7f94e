import I4A.Core.Machine
import I4A.Routing.Dispatch
import I4A.Routing.LongestPrefix

/-! # A node, one event at a time

Above the ring, a node is its shared table, the role of each board and the
sibling events each board has stored. A board handles the sibling events it has
stored before any peer event; what it broadcasts is stored by the other four
before another board moves. The last section puts the events of one critical
section back together.
-/

namespace I4A

/-! ## What the calls of a handler do to the node -/

namespace RtAction

/-- The sibling event of a call. -/
def siblEvent : RtAction → Option RtSiblEvent
  | .rsBroadcast event => some event
  | _ => none

/-- The peer message of a call. -/
def peerMessage : RtAction → Option RtPeerEvent
  | .wlSendPeerMessage event => some event
  | _ => none

def enablesAp : RtAction → Bool
  | .wlEnableApMode _ => true
  | _ => false

end RtAction

def siblEvents (actions : List RtAction) : List RtSiblEvent :=
  actions.filterMap RtAction.siblEvent

def peerMessages (actions : List RtAction) : List RtPeerEvent :=
  actions.filterMap RtAction.peerMessage

def tableAfter (table : RtRoutingTable) (actions : List RtAction) : RtRoutingTable :=
  (RtAction.performAll table actions).1

structure Node where
  table : RtRoutingTable
  roles : Orientation → RtRole
  /-- Stored sibling events, in order of arrival. -/
  inbox : Orientation → List RtSiblEvent

namespace Node

/-- A node whose boards have run `rt_create`, their init function and `rt_on_start`. -/
def start (roles : Orientation → RtRole) : Node where
  table := routingTableInit Orientation.center.output
  roles := roles
  inbox := fun _ => [.onStart]

/-- The roles of a node other than the root's. -/
def homeRoles : Orientation → RtRole
  | .center => .home createHomeCore
  | _ => .forwarder createForwarderCore

/-- The roles of the root's node. -/
def rootRoles (network : Network) : Orientation → RtRole
  | .center => .root (createRootCore network.addr network.mask)
  | _ => .forwarder createForwarderCore

variable (n : Node)

/-- A handler's result on board `o`. -/
def act (o : Orientation) (result : RtRole × List RtAction) : Node where
  table := tableAfter n.table result.2
  roles := Function.update n.roles o result.1
  inbox := fun o' => if o' = o then n.inbox o' else n.inbox o' ++ siblEvents result.2

/-- The node without the first event stored by board `o`. -/
def pop (o : Orientation) (rest : List RtSiblEvent) : Node :=
  { n with inbox := Function.update n.inbox o rest }

/-- What handling the first stored sibling event, or a peer event, of board `o` computes. -/
def siblResult (o : Orientation) : Option (RtRole × List RtAction × List RtSiblEvent) :=
  match n.inbox o with
  | [] => none
  | ev :: rest => (dispatchSibl o (n.roles o) ev).map fun r => (r.1, r.2, rest)

def peerResult (o : Orientation) (ev : RtPeerEvent) : Option (RtRole × List RtAction) :=
  if n.inbox o = [] then dispatchPeer o (n.roles o) ev else none

end Node

inductive NodeLabel where
  /-- Board `o` handles its first stored sibling event. -/
  | sibl (o : Orientation)
  /-- Board `o`, with no sibling event stored, handles a peer event. -/
  | peer (o : Orientation) (ev : RtPeerEvent)

def Node.step (n : Node) : NodeLabel → Option Node
  | .sibl o => (n.siblResult o).map fun r => (n.pop o r.2.2).act o (r.1, r.2.1)
  | .peer o ev => (n.peerResult o ev).map (n.act o)

def nodeMachine : Machine Node NodeLabel := ⟨Node.step⟩

/-! ## Small facts -/

@[simp] theorem tableAfter_nil (table : RtRoutingTable) : tableAfter table [] = table := rfl

@[simp] theorem tableAfter_cons (table : RtRoutingTable) (action : RtAction)
    (rest : List RtAction) :
    tableAfter table (action :: rest) = tableAfter (action.perform table).1 rest := rfl

theorem tableAfter_append (table : RtRoutingTable) (first second : List RtAction) :
    tableAfter table (first ++ second) = tableAfter (tableAfter table first) second := by
  simp [tableAfter, RtAction.performAll_append]

theorem tableAfter_sorted {table : RtRoutingTable} (h : table.Sorted) (actions : List RtAction) :
    (tableAfter table actions).Sorted := by
  induction actions generalizing table with
  | nil => exact h
  | cons action rest ih =>
      cases action with
      | addGlobalRoute route output => exact ih (h.add _ _ _)
      | removeRoutesByOutput output => exact ih (h.remove _)
      | _ => exact ih h

theorem performAll_filterMap {Message : Type*} {read : RtOutput → Option Message}
    {made : RtAction → Option Message}
    (each : ∀ table action, (RtAction.perform table action).2.filterMap read =
      (made action).toList) (table : RtRoutingTable) (actions : List RtAction) :
    (RtAction.performAll table actions).2.filterMap read = actions.filterMap made := by
  induction actions generalizing table with
  | nil => rfl
  | cons action rest ih =>
      rw [RtAction.performAll_cons, List.filterMap_append, ih, each]
      cases h : made action <;> simp [h]

@[simp] theorem siblEvents_nil : siblEvents [] = [] := rfl

@[simp] theorem siblEvents_cons (action : RtAction) (rest : List RtAction) :
    siblEvents (action :: rest) = action.siblEvent.toList ++ siblEvents rest := by
  cases h : action.siblEvent <;> simp [siblEvents, h]

@[simp] theorem peerMessages_nil : peerMessages [] = [] := rfl

@[simp] theorem peerMessages_cons (action : RtAction) (rest : List RtAction) :
    peerMessages (action :: rest) = action.peerMessage.toList ++ peerMessages rest := by
  cases h : action.peerMessage <;> simp [peerMessages, h]

@[simp] theorem siblEvents_routes (routes : List Network) (o : Orientation) :
    siblEvents (routes.map (RtAction.addGlobalRoute · o)) = [] := by
  induction routes with
  | nil => rfl
  | cons route rest ih => simpa [RtAction.siblEvent] using ih

@[simp] theorem peerMessages_routes (routes : List Network) (o : Orientation) :
    peerMessages (routes.map (RtAction.addGlobalRoute · o)) = [] := by
  induction routes with
  | nil => rfl
  | cons route rest ih => simpa [RtAction.peerMessage] using ih

@[simp] theorem siblEvents_append (first second : List RtAction) :
    siblEvents (first ++ second) = siblEvents first ++ siblEvents second :=
  List.filterMap_append

@[simp] theorem peerMessages_append (first second : List RtAction) :
    peerMessages (first ++ second) = peerMessages first ++ peerMessages second :=
  List.filterMap_append

/-! ### The default gateway -/

/-- The default gateway after a call: only a route to 0/0 sets it. -/
def RtAction.gateway (gateway : UInt8) : RtAction → UInt8
  | .addGlobalRoute route output => if route = Network.zero then output.output else gateway
  | _ => gateway

def gatewayAfter (gateway : UInt8) (actions : List RtAction) : UInt8 :=
  actions.foldl RtAction.gateway gateway

@[simp] theorem gatewayAfter_nil (gateway : UInt8) : gatewayAfter gateway [] = gateway := rfl

@[simp] theorem gatewayAfter_cons (gateway : UInt8) (action : RtAction) (rest : List RtAction) :
    gatewayAfter gateway (action :: rest) = gatewayAfter (action.gateway gateway) rest := rfl

theorem gatewayAfter_append (gateway : UInt8) (first second : List RtAction) :
    gatewayAfter gateway (first ++ second) = gatewayAfter (gatewayAfter gateway first) second :=
  List.foldl_append

theorem perform_defaultGateway (table : RtRoutingTable) (action : RtAction) :
    (action.perform table).1.defaultGateway = action.gateway table.defaultGateway := by
  cases action with
  | addGlobalRoute route output =>
      by_cases h : route = Network.zero
      · subst h
        rw [RtAction.gateway, if_pos rfl]
        exact congrArg RtRoutingTable.defaultGateway (add_default table output.output)
      · rw [RtAction.gateway, if_neg h]
        exact add_defaultGateway (mt Network.eq_zero_iff.mpr h) table output.output
  | removeRoutesByOutput output => exact remove_defaultGateway table output.output
  | _ => rfl

theorem tableAfter_defaultGateway (table : RtRoutingTable) (actions : List RtAction) :
    (tableAfter table actions).defaultGateway = gatewayAfter table.defaultGateway actions := by
  induction actions generalizing table with
  | nil => rfl
  | cons action rest ih =>
      rw [tableAfter_cons, ih, perform_defaultGateway, gatewayAfter_cons]

/-- The routes of a gateway request set the gateway if one of them is 0/0. -/
theorem gatewayAfter_routes (gateway : UInt8) (routes : List Network) (o : Orientation) :
    gatewayAfter gateway (routes.map (RtAction.addGlobalRoute · o)) =
      if Network.zero ∈ routes then o.output else gateway := by
  induction routes generalizing gateway with
  | nil => rfl
  | cons route rest ih =>
      rw [List.map_cons, gatewayAfter_cons, ih, RtAction.gateway]
      by_cases hroute : route = Network.zero
      · simp [hroute]
      · have hroute' : Network.zero ≠ route := Ne.symm hroute
        simp [hroute, hroute']

namespace Node

variable {n u : Node} {o : Orientation}

@[simp] theorem act_table (n : Node) (o : Orientation) (r : RtRole × List RtAction) :
    (n.act o r).table = tableAfter n.table r.2 := rfl

@[simp] theorem act_roles_self (n : Node) (o : Orientation) (r : RtRole × List RtAction) :
    (n.act o r).roles o = r.1 := Function.update_self _ _ _

theorem act_roles_of_ne (n : Node) {o o' : Orientation} (h : o' ≠ o)
    (r : RtRole × List RtAction) : (n.act o r).roles o' = n.roles o' :=
  Function.update_of_ne h _ _

@[simp] theorem act_inbox_self (n : Node) (o : Orientation) (r : RtRole × List RtAction) :
    (n.act o r).inbox o = n.inbox o := if_pos rfl

theorem act_inbox_of_ne (n : Node) {o o' : Orientation} (h : o' ≠ o)
    (r : RtRole × List RtAction) :
    (n.act o r).inbox o' = n.inbox o' ++ siblEvents r.2 := if_neg h

@[simp] theorem pop_table (n : Node) (o : Orientation) (rest : List RtSiblEvent) :
    (n.pop o rest).table = n.table := rfl

@[simp] theorem pop_roles (n : Node) (o : Orientation) (rest : List RtSiblEvent) :
    (n.pop o rest).roles = n.roles := rfl

@[simp] theorem pop_inbox_self (n : Node) (o : Orientation) (rest : List RtSiblEvent) :
    (n.pop o rest).inbox o = rest := Function.update_self _ _ _

theorem pop_inbox_of_ne (n : Node) {o o' : Orientation} (h : o' ≠ o)
    (rest : List RtSiblEvent) : (n.pop o rest).inbox o' = n.inbox o' :=
  Function.update_of_ne h _ _

theorem mem_of_mem_pop {n : Node} {o o' : Orientation} {ev e : RtSiblEvent}
    {rest : List RtSiblEvent} (hin : n.inbox o = ev :: rest) (he : e ∈ (n.pop o rest).inbox o') :
    e ∈ n.inbox o' := by
  by_cases ho : o' = o
  · subst ho
    rw [pop_inbox_self] at he
    rw [hin]
    exact List.mem_cons_of_mem _ he
  · rwa [pop_inbox_of_ne _ ho] at he

/-- Everything a sibling step can do. -/
theorem step_sibl (h : n.step (.sibl o) = some u) :
    ∃ ev rest role actions, n.inbox o = ev :: rest ∧
      dispatchSibl o (n.roles o) ev = some (role, actions) ∧
      u = (n.pop o rest).act o (role, actions) := by
  simp only [step, siblResult] at h
  cases hin : n.inbox o with
  | nil =>
      rw [hin] at h
      cases h
  | cons ev rest =>
      rw [hin] at h
      simp only [Option.map_map, Option.map_eq_some_iff] at h
      obtain ⟨⟨role, actions⟩, hd, hu⟩ := h
      exact ⟨ev, rest, role, actions, rfl, hd, hu.symm⟩

/-- Everything a peer step can do. -/
theorem step_peer {ev : RtPeerEvent} (h : n.step (.peer o ev) = some u) :
    n.inbox o = [] ∧ ∃ role actions, dispatchPeer o (n.roles o) ev = some (role, actions) ∧
      u = n.act o (role, actions) := by
  simp only [step, peerResult] at h
  by_cases hin : n.inbox o = []
  · rw [if_pos hin, Option.map_eq_some_iff] at h
    obtain ⟨⟨role, actions⟩, hd, hu⟩ := h
    exact ⟨hin, role, actions, hd, hu.symm⟩
  · rw [if_neg hin] at h
    cases h

/-! ## The events of one critical section -/

/-- The board `o` of the node as a routing module that has stored `peers`. -/
def board (n : Node) (o : Orientation) (peers : List RtPeerEvent) : Routing where
  orientation := o
  externalQueue := peers
  internalQueue := n.inbox o
  role := n.roles o
  routingTable := n.table

/-- The node after board `o` ended a loop with `role` and `actions`. -/
def After (n : Node) (o : Orientation) (role : RtRole) (actions : List RtAction) (u : Node) :
    Prop :=
  u.roles o = role ∧ u.table = tableAfter n.table actions ∧
    ∀ o', o' ≠ o →
      u.roles o' = n.roles o' ∧ u.inbox o' = n.inbox o' ++ siblEvents actions

theorem After.act {m : Node} {role role' : RtRole} {actions actions' : List RtAction}
    (h : n.After o role actions m) :
    n.After o role' (actions ++ actions') (m.act o (role', actions')) := by
  refine ⟨act_roles_self _ _ _, ?_, fun o' ho' => ⟨?_, ?_⟩⟩
  · rw [act_table, h.2.1, tableAfter_append]
  · rw [act_roles_of_ne _ ho', (h.2.2 o' ho').1]
  · rw [act_inbox_of_ne _ ho', (h.2.2 o' ho').2, siblEvents_append, List.append_assoc]

theorem After.trans {m : Node} {role role' : RtRole} {actions actions' : List RtAction}
    (first : n.After o role actions m) (second : m.After o role' actions' u) :
    n.After o role' (actions ++ actions') u := by
  refine ⟨second.1, ?_, fun o' ho' => ⟨?_, ?_⟩⟩
  · rw [second.2.1, first.2.1, tableAfter_append]
  · rw [(second.2.2 o' ho').1, (first.2.2 o' ho').1]
  · rw [(second.2.2 o' ho').2, (first.2.2 o' ho').2, siblEvents_append, List.append_assoc]

/-- The loop over the stored sibling events is as many sibling steps. -/
theorem run_siblLoop (n : Node) (o : Orientation)
    (known : (n.inbox o).all RtSiblEvent.known = true) :
    ∃ u, nodeMachine.run n (List.replicate (n.inbox o).length (.sibl o)) = some u ∧
      u.inbox o = [] ∧
      n.After o (dispatchQueue (dispatchSibl o) (n.roles o) (n.inbox o)).role
        (dispatchQueue (dispatchSibl o) (n.roles o) (n.inbox o)).actions u := by
  generalize hq : n.inbox o = queue at known ⊢
  induction queue generalizing n with
  | nil =>
      refine ⟨n, rfl, hq, rfl, rfl, fun o' _ => ⟨rfl, ?_⟩⟩
      simp [siblEvents]
  | cons ev rest ih =>
      simp only [List.all_cons, Bool.and_eq_true] at known
      have hsome : (dispatchSibl o (n.roles o) ev).isSome = true := by
        rw [dispatchSibl_isSome]
        exact known.1
      obtain ⟨⟨role, actions⟩, hd⟩ := Option.isSome_iff_exists.mp hsome
      have hstep : n.step (.sibl o) = some ((n.pop o rest).act o (role, actions)) := by
        simp [step, siblResult, hq, hd]
      obtain ⟨u, hrun, hin, hafter⟩ := ih ((n.pop o rest).act o (role, actions))
        (by rw [act_inbox_self, pop_inbox_self]) known.2
      refine ⟨u, ?_, hin, ?_⟩
      · simp only [List.length_cons, List.replicate_succ, Machine.run, Machine.runWith, if_true]
        change (n.step (.sibl o)).bind _ = some u
        rw [hstep]
        exact hrun
      · rw [dispatchQueue_cons_some hd]
        rw [act_roles_self] at hafter
        have first : n.After o role actions ((n.pop o rest).act o (role, actions)) :=
          ⟨act_roles_self _ _ _, rfl, fun o' ho' => ⟨act_roles_of_ne _ ho' _, by
            rw [act_inbox_of_ne _ ho', pop_inbox_of_ne _ ho']⟩⟩
        exact first.trans hafter

/-- The loop over the stored peer events is as many peer steps. -/
theorem run_peerLoop (n : Node) (o : Orientation) (peers : List RtPeerEvent)
    (hin : n.inbox o = []) (known : peers.all RtPeerEvent.known = true) :
    ∃ u, nodeMachine.run n (peers.map (.peer o)) = some u ∧ u.inbox o = [] ∧
      n.After o (dispatchQueue (dispatchPeer o) (n.roles o) peers).role
        (dispatchQueue (dispatchPeer o) (n.roles o) peers).actions u := by
  induction peers generalizing n with
  | nil =>
      refine ⟨n, rfl, hin, rfl, rfl, fun o' _ => ⟨rfl, ?_⟩⟩
      simp [siblEvents]
  | cons ev rest ih =>
      simp only [List.all_cons, Bool.and_eq_true] at known
      have hsome : (dispatchPeer o (n.roles o) ev).isSome = true := by
        rw [dispatchPeer_isSome]
        exact known.1
      obtain ⟨⟨role, actions⟩, hd⟩ := Option.isSome_iff_exists.mp hsome
      have hstep : n.step (.peer o ev) = some (n.act o (role, actions)) := by
        simp [step, peerResult, hin, hd]
      obtain ⟨u, hrun, hin', hafter⟩ := ih (n.act o (role, actions))
        (by rw [act_inbox_self, hin]) known.2
      refine ⟨u, ?_, hin', ?_⟩
      · simp only [List.map_cons, Machine.run, Machine.runWith, if_true]
        change (n.step (.peer o ev)).bind _ = some u
        rw [hstep]
        exact hrun
      · rw [dispatchQueue_cons_some hd]
        rw [act_roles_self] at hafter
        have first : n.After o role actions (n.act o (role, actions)) :=
          ⟨act_roles_self _ _ _, rfl, fun o' ho' => ⟨act_roles_of_ne _ ho' _,
            act_inbox_of_ne _ ho' _⟩⟩
        exact first.trans hafter

/-- One critical section of board `o` is a run of the node: the same role, the same table,
and the broadcasts stored by the other boards. -/
theorem run_criticalSection (n : Node) (o : Orientation) (peers : List RtPeerEvent)
    (knownSibl : (n.inbox o).all RtSiblEvent.known = true)
    (knownPeer : peers.all RtPeerEvent.known = true) :
    ∃ u actions, nodeMachine.run n
        (List.replicate (n.inbox o).length (.sibl o) ++ peers.map (.peer o)) = some u ∧
      u.inbox o = [] ∧
      n.After o (onCriticalSection (n.board o peers)).board.role actions u ∧
      u.table = (onCriticalSection (n.board o peers)).board.routingTable ∧
      (onCriticalSection (n.board o peers)).outputs =
        (RtAction.performAll n.table actions).2 := by
  obtain ⟨m, hrun, hin, hafter⟩ := run_siblLoop n o knownSibl
  obtain ⟨u, hrun', hin', hafter'⟩ := run_peerLoop m o peers hin knownPeer
  have hboth := hafter.trans hafter'
  rw [hafter.1] at hboth
  obtain ⟨-, hsibl⟩ := dispatchQueue_handled (dispatchSibl_isSome o) (n.roles o) (n.inbox o)
  obtain ⟨-, hpeer⟩ := dispatchQueue_handled (dispatchPeer_isSome o)
    (dispatchQueue (dispatchSibl o) (n.roles o) (n.inbox o)).role peers
  rw [knownSibl] at hsibl
  rw [knownPeer] at hpeer
  refine ⟨u, (dispatchQueue (dispatchSibl o) (n.roles o) (n.inbox o)).actions ++
    (dispatchQueue (dispatchPeer o)
      (dispatchQueue (dispatchSibl o) (n.roles o) (n.inbox o)).role peers).actions,
    ?_, hin', ?_, ?_, ?_⟩
  · rw [Machine.run, Machine.runWith_append]
    change (nodeMachine.run n _).bind _ = _
    rw [hrun]
    exact hrun'
  · have hrole : (onCriticalSection (n.board o peers)).board.role =
        (dispatchQueue (dispatchPeer o)
          (dispatchQueue (dispatchSibl o) (n.roles o) (n.inbox o)).role peers).role := by
      simp [onCriticalSection, board, hsibl, hpeer]
    rw [hrole]
    exact hboth
  · rw [hboth.2.1]
    simp [onCriticalSection, board, hsibl, hpeer, tableAfter]
  · simp [onCriticalSection, board, hsibl]

end Node

end I4A
