import I4A.Node.Model
import Mathlib.Data.Finset.Card
import Mathlib.Data.Finset.Dedup

/-! # The routes a gateway request adds

`on_new_gateway_request` copies the networks of the request into the node's table.
Its loop is meant to stop at the first unused slot.
-/

namespace I4A

def Network.key (network : Network) : RouteKey := (network.addr, network.mask)

namespace RtRoutingTable

/-- The keys of the used entries. -/
def keys (table : RtRoutingTable) : Finset RouteKey := (table.used.map RtRoutingEntry.key).toFinset

/-- The old keys and those of the listed networks fit into the table. -/
def RoomFor (table : RtRoutingTable) (listed : List Network) : Prop :=
  (table.keys ∪ (listed.map Network.key).toFinset).card ≤ maxRoutingEntries

instance (table : RtRoutingTable) (listed : List Network) : Decidable (table.RoomFor listed) :=
  inferInstanceAs (Decidable (_ ≤ _))

/-- `after` is the table with the listed networks added or re-pointed to a board, and with
nothing else changed. -/
structure AddsExactly (table : RtRoutingTable) (listed : List Network) (board : Orientation)
    (after : RtRoutingTable) : Prop where
  sorted : after.Sorted
  entries : ∀ e, e ∈ after.used ↔
    (e.key ∈ listed.map Network.key ∧ e.output = board.output) ∨
      (e ∈ table.used ∧ e.key ∉ listed.map Network.key)
  gateway : after.defaultGateway = table.defaultGateway

/-! ## One route -/

theorem mem_keys {table : RtRoutingTable} {key : RouteKey} :
    key ∈ table.keys ↔ ∃ e ∈ table.used, e.key = key := by
  rw [keys, List.mem_toFinset, List.mem_map]

namespace Sorted

variable {table : RtRoutingTable} {network mask : BitVec 32}

theorem card_keys (h : table.Sorted) : table.keys.card = table.count := by
  rw [keys, List.toFinset_card_of_nodup h.distinct, List.length_map, used_length h.count_le]

theorem hasRoom (h : table.Sorted) {key : RouteKey}
    (fits : (insert key table.keys).card ≤ maxRoutingEntries) : table.HasRoom key := by
  by_cases hkey : key ∈ table.keys
  · exact .inr (mem_keys.mp hkey)
  · left
    rw [Finset.card_insert_of_notMem hkey, h.card_keys] at fits
    exact fits

/-- With room for it the new entry takes the place of the one with its key. -/
theorem mem_add_iff (h : table.Sorted) (hdef : ¬ (network = 0 ∧ mask = 0))
    (room : table.HasRoom (network, mask)) (output : UInt8) (e : RtRoutingEntry) :
    e ∈ (routingTableAdd table network mask output).used ↔
      e = ⟨network, mask, output⟩ ∨ (e ∈ table.used ∧ e.key ≠ (network, mask)) := by
  have hnew := h.mem_add hdef room output
  constructor
  · intro he
    by_cases hkey : e.key = (network, mask)
    · exact .inl (List.inj_on_of_nodup_map (h.add network mask output).distinct he hnew hkey)
    · rcases h.mem_of_add hdef he with hold | hsame
      · exact .inr ⟨hold, hkey⟩
      · exact .inl hsame
  · rintro (rfl | ⟨hold, hkey⟩)
    · exact hnew
    · exact h.mem_add_of_mem hdef hold hkey

theorem keys_add (h : table.Sorted) (hdef : ¬ (network = 0 ∧ mask = 0))
    (room : table.HasRoom (network, mask)) (output : UInt8) :
    (routingTableAdd table network mask output).keys = insert (network, mask) table.keys := by
  ext key
  rw [Finset.mem_insert, mem_keys, mem_keys]
  constructor
  · rintro ⟨e, he, rfl⟩
    rcases (h.mem_add_iff hdef room output e).mp he with rfl | ⟨hold, -⟩
    · exact .inl rfl
    · exact .inr ⟨e, hold, rfl⟩
  · intro hkey
    by_cases hsame : key = (network, mask)
    · exact ⟨_, h.mem_add hdef room output, hsame.symm⟩
    · obtain ⟨e, he, rfl⟩ := hkey.resolve_left hsame
      exact ⟨e, h.mem_add_of_mem hdef he hsame, rfl⟩

end Sorted

end RtRoutingTable

open RtRoutingTable

/-! ## A list of routes -/

/-- The loop of routes, one listed network after another. -/
theorem addRoutes_entries {table : RtRoutingTable} (sorted : table.Sorted) {listed : List Network}
    (nonzero : ∀ network ∈ listed, network.addr ≠ 0) (room : table.RoomFor listed)
    (self : Orientation) (e : RtRoutingEntry) :
    e ∈ (tableAfter table (listed.map (RtAction.addGlobalRoute · self))).used ↔
      (e.key ∈ listed.map Network.key ∧ e.output = self.output) ∨
        (e ∈ table.used ∧ e.key ∉ listed.map Network.key) := by
  induction listed generalizing table with
  | nil => simp
  | cons network rest ih =>
      have hdef : ¬ (network.addr = 0 ∧ network.mask = 0) := by
        intro hzero
        exact nonzero network List.mem_cons_self hzero.1
      unfold RoomFor at room
      rw [List.map_cons, List.toFinset_cons, Finset.union_insert, ← Finset.insert_union] at room
      have hroom : table.HasRoom (network.addr, network.mask) := by
        apply sorted.hasRoom
        exact (Finset.card_le_card Finset.subset_union_left).trans room
      have hkeys := sorted.keys_add hdef hroom self.output
      have hrest : (routingTableAdd table network.addr network.mask self.output).RoomFor rest := by
        unfold RoomFor
        rw [hkeys]
        exact room
      rw [List.map_cons, tableAfter_cons]
      show e ∈ (tableAfter (routingTableAdd table network.addr network.mask self.output) _).used ↔ _
      rw [ih (sorted.add _ _ _) (fun other hmem => nonzero other (List.mem_cons_of_mem _ hmem))
        hrest, sorted.mem_add_iff hdef hroom]
      have hnew : e = ⟨network.addr, network.mask, self.output⟩ ↔
          e.key = network.key ∧ e.output = self.output := by
        cases e
        simp only [RtRoutingEntry.key, Network.key, RtRoutingEntry.mk.injEq, Prod.mk.injEq]
        tauto
      rw [hnew, List.map_cons, List.mem_cons]
      show (_ ∧ _) ∨ (_ ∨ _ ∧ e.key ≠ network.key) ∧ _ ↔ _
      by_cases hrest : e.key ∈ rest.map Network.key
      · simp only [hrest, true_and, not_true_eq_false, and_false, or_false, or_true]
      · simp only [hrest, false_and, not_false_eq_true, and_true, or_false, false_or]

theorem addRoutes_zero (table : RtRoutingTable) (n : Nat) (self : Orientation) :
    (tableAfter table
      ((List.replicate n Network.zero).map (RtAction.addGlobalRoute · self))).used =
        table.used := by
  induction n generalizing table with
  | zero => rfl
  | succ n ih =>
      rw [List.replicate_succ, List.map_cons, tableAfter_cons, ih]
      show (routingTableAdd table 0 0 self.output).used = table.used
      rw [add_default]
      rfl

/-- An unused slot behind the list sets the default gateway. -/
theorem addRoutes_gateway (table : RtRoutingTable) (self : Orientation) {listed : List Network}
    (nonzero : ∀ network ∈ listed, network.addr ≠ 0) (hlength : listed.length ≤ maxHagNetworks) :
    (tableAfter table
      ((listed ++ List.replicate (maxHagNetworks - listed.length) Network.zero).map
        (RtAction.addGlobalRoute · self))).defaultGateway =
      if listed.length = maxHagNetworks then table.defaultGateway else self.output := by
  have hlisted : Network.zero ∉ listed := by
    intro hmem
    exact nonzero _ hmem rfl
  rw [tableAfter_defaultGateway, gatewayAfter_routes]
  by_cases hfull : listed.length = maxHagNetworks
  · rw [if_pos hfull, hfull, Nat.sub_self, List.replicate_zero, List.append_nil, if_neg hlisted]
  · have hunused : maxHagNetworks - listed.length ≠ 0 := by omega
    rw [if_neg hfull, if_pos]
    exact List.mem_append_right _ (List.mem_replicate.mpr ⟨hunused, rfl⟩)

/-! ## The request -/

theorem HagNetworks.first_eq {hag : HagNetworks} {network : Network} {rest : List Network}
    (h : hag.toList = network :: rest) : hag[0] = network := by
  have hget : hag.toList[0]? = some network := by rw [h, List.getElem?_cons_zero]
  rw [Vector.getElem?_toList, Vector.getElem?_eq_getElem (by decide)] at hget
  exact Option.some.inj hget

namespace Forwarder.Peer

/-- The loop stops at once, or never. -/
theorem requestRoutes_nil (self : Orientation) {hag : HagNetworks}
    (h : hag.toList = List.replicate maxHagNetworks Network.zero) :
    requestRoutes self hag hag.toList = [] := by
  have hfirst : hag[0] = Network.zero := HagNetworks.first_eq h
  rw [requestRoutes_eq, hfirst, Network.zero, if_pos rfl]

theorem requestRoutes_cons (self : Orientation) {hag : HagNetworks} {network : Network}
    {rest : List Network} (hlist : hag.toList = network :: rest) (hne : network.addr ≠ 0) :
    requestRoutes self hag hag.toList = hag.toList.map (RtAction.addGlobalRoute · self) := by
  rw [requestRoutes_eq, HagNetworks.first_eq hlist, if_neg hne]

theorem tableAfter_newGatewayRequest (self : Orientation) (state : RtForwarderState)
    (event : RtPeerNewGatewayRequest) (table : RtRoutingTable) :
    tableAfter table (onNewGatewayRequest self state event).2 =
      tableAfter table (requestRoutes self event.hagNetworks event.hagNetworks.toList) := by
  unfold onNewGatewayRequest
  split
  · rw [tableAfter_append]
    rfl
  · split
    · rfl
    · rw [tableAfter_append]
      rfl

end Forwarder.Peer

/-- The table gets exactly the listed routes if nothing is listed, or if no slot is unused, or if
the default gateway was this board already: every unused slot sets it. -/
theorem newGatewayRequest_addsExactly_iff (self : Orientation) (state : RtForwarderState)
    (table : RtRoutingTable) (sorted : table.Sorted) (listed : List Network)
    (nonzero : ∀ network ∈ listed, network.addr ≠ 0) (room : table.RoomFor listed)
    (event : RtPeerNewGatewayRequest)
    (hag : event.hagNetworks.toList =
      listed ++ List.replicate (maxHagNetworks - listed.length) Network.zero) :
    table.AddsExactly listed self
        (tableAfter table (Forwarder.Peer.onNewGatewayRequest self state event).2) ↔
      listed = [] ∨ listed.length = maxHagNetworks ∨ table.defaultGateway = self.output := by
  rw [Forwarder.Peer.tableAfter_newGatewayRequest]
  cases listed with
  | nil =>
      rw [Forwarder.Peer.requestRoutes_nil self hag, tableAfter_nil]
      refine iff_of_true ?_ (.inl rfl)
      constructor
      · exact sorted
      · simp
      · rfl
  | cons network rest =>
      have hroutes := Forwarder.Peer.requestRoutes_cons self hag
        (nonzero network List.mem_cons_self)
      have hlength : (network :: rest).length ≤ maxHagNetworks := by
        have h := congrArg List.length hag
        rw [Vector.length_toList, List.length_append] at h
        omega
      have hgateway := addRoutes_gateway table self nonzero hlength
      rw [← hag] at hgateway
      rw [hroutes]
      constructor
      · intro h
        have hkept := h.gateway
        rw [hgateway] at hkept
        by_cases hfull : (network :: rest).length = maxHagNetworks
        · exact .inr (.inl hfull)
        · rw [if_neg hfull] at hkept
          exact .inr (.inr hkept.symm)
      · intro h
        constructor
        · exact tableAfter_sorted sorted _
        · intro e
          rw [hag, List.map_append, tableAfter_append, addRoutes_zero]
          exact addRoutes_entries sorted nonzero room self e
        · rw [hgateway]
          split
          · rfl
          next hfull =>
            exact ((h.resolve_left (List.cons_ne_nil _ _)).resolve_left hfull).symm

/-! ## One listed network -/

/-- A request that names 10.32.0.0/11. -/
def oneNetworkRequest : RtPeerNewGatewayRequest :=
  ⟨HagNetworks.empty.setIfInBounds 0 ⟨0x0A200000, 0xFFE00000⟩⟩

/-- North's request in a node that has north as its gateway. -/
theorem newGatewayRequest_addsExactly_north :
    (routingTableInit Orientation.north.output).AddsExactly [⟨0x0A200000, 0xFFE00000⟩] .north
      (tableAfter (routingTableInit Orientation.north.output)
        (Forwarder.Peer.onNewGatewayRequest .north createForwarderCore oneNetworkRequest).2) :=
  (newGatewayRequest_addsExactly_iff .north createForwarderCore _ (.init _)
    [⟨0x0A200000, 0xFFE00000⟩] (by decide) (by decide) oneNetworkRequest (by decide)).mpr
      (.inr (.inr rfl))

/-- In a node with another gateway it makes north the default gateway. -/
theorem newGatewayRequest_takesGateway :
    ¬ ∀ (self : Orientation) (state : RtForwarderState) (table : RtRoutingTable),
      table.Sorted → ∀ listed : List Network, (∀ network ∈ listed, network.addr ≠ 0) →
        table.RoomFor listed → ∀ event : RtPeerNewGatewayRequest,
          event.hagNetworks.toList =
              listed ++ List.replicate (maxHagNetworks - listed.length) Network.zero →
            table.AddsExactly listed self
              (tableAfter table (Forwarder.Peer.onNewGatewayRequest self state event).2) := by
  intro h
  have added := h .north createForwarderCore (routingTableInit Orientation.center.output) (.init _)
    [⟨0x0A200000, 0xFFE00000⟩] (by decide) (by decide) oneNetworkRequest (by decide)
  exact absurd added.gateway (by decide)

end I4A
