import I4A.Node.Hearing

/-! # Distances to the root

A board that takes its peer as the gateway is one node further from the root than the
peer. The handlers add this 1 in different places and compare in different ways.
-/

namespace I4A

open Forwarder

/-! ## Taking a peer as the gateway -/

/-- The peer events that can make the peer the node's gateway. -/
inductive GatewayOffer where
  | handshake (event : RtPeerHandshake)
  | updateDtr (event : RtPeerUpdateDtr)
  | newGatewayResponse (event : RtPeerNewGatewayResponse)
  deriving DecidableEq

namespace GatewayOffer

/-- The peer's distance. -/
def dtr : GatewayOffer → BitVec 32
  | .handshake event => event.dtr
  | .updateDtr event => event.dtr
  | .newGatewayResponse event => event.dtr

def handle (self : Orientation) (state : RtForwarderState) :
    GatewayOffer → RtForwarderState × List RtAction
  | .handshake event => Peer.onHandshake self state event
  | .updateDtr event => Peer.onUpdateDtr self state event
  | .newGatewayResponse event => Peer.onNewGatewayResponse self state event

/-- The board makes itself the default gateway; a handshake counts while it has no network. -/
def Adopted (self : Orientation) (state : RtForwarderState) : GatewayOffer → Prop
  | .handshake _ => state.globalState = .withoutNetwork
  | offer => .addGlobalRoute Network.zero self ∈ (offer.handle self state).2

end GatewayOffer

/-- The handler of the sibling event does not return before it writes the state. -/
def Forwarder.Sibling.Accepts (state : RtForwarderState) : RtSiblEvent → Prop
  | .updateDtr event => Sibling.refuses state event.dtr = false
  | .provision _ => state.globalState ≠ .withNetwork
  | .newGatewayWinner _ => state.dtr ≠ 1
  | _ => False

/-- The board and every forwarder that accepts what it broadcasts end at one distance. -/
structure GatewayOffer.Agrees (board : Orientation) (state : RtForwarderState)
    (siblings : Orientation → RtForwarderState) (offer : GatewayOffer) : Prop where
  own : (offer.handle board state).1.dtr = offer.dtr + 1
  sibling : ∀ c ∈ board.siblings, c ≠ .center →
    ∀ ev ∈ siblEvents (offer.handle board state).2, Sibling.Accepts (siblings c) ev →
      (hear c (siblings c) ev).dtr = offer.dtr + 1 ∧ (hear c (siblings c) ev).isLocalRoot = false

/-! ### The handlers that adopt -/

namespace Forwarder

variable {self : Orientation} {state : RtForwarderState}

theorem Peer.onUpdateDtr_cases (self : Orientation) (state : RtForwarderState)
    (event : RtPeerUpdateDtr) :
    (¬ (event.dtr ≠ 0 ∧ (state.dtr = 0 ∨ event.dtr + 1 < state.dtr)) ∧
      Peer.onUpdateDtr self state event = (state, [])) ∨
      ((event.dtr ≠ 0 ∧ (state.dtr = 0 ∨ event.dtr + 1 < state.dtr)) ∧
        Peer.onUpdateDtr self state event =
          ({ state with dtr := event.dtr + 1, isLocalRoot := true },
            [.addGlobalRoute Network.zero self, .rsBroadcast (.updateDtr ⟨event.dtr + 1⟩)])) := by
  unfold Peer.onUpdateDtr
  by_cases hzero : event.dtr = 0
  · left
    rw [if_pos hzero]
    exact ⟨fun h => h.1 hzero, rfl⟩
  · by_cases hbetter : state.dtr = 0 ∨ event.dtr + 1 < state.dtr
    · right
      rw [if_neg hzero, if_pos hbetter]
      exact ⟨⟨hzero, hbetter⟩, rfl⟩
    · left
      rw [if_neg hzero, if_neg hbetter]
      exact ⟨fun h => hbetter h.2, rfl⟩

theorem Peer.onNewGatewayResponse_cases (self : Orientation) (state : RtForwarderState)
    (event : RtPeerNewGatewayResponse) :
    ((state.dtr ≠ 0 ∧ state.dtr ≤ event.dtr) ∧
      Peer.onNewGatewayResponse self state event = (state, [])) ∨
      (¬ (state.dtr ≠ 0 ∧ state.dtr ≤ event.dtr) ∧
        Peer.onNewGatewayResponse self state event =
          ({ state with
              globalState := .withNetwork
              isLocalRoot := true
              dtr := event.dtr + 1 },
            [.addGlobalRoute Network.zero self,
              .rsBroadcast (.newGatewayWinner ⟨event.externalNetwork, event.dtr + 1⟩)])) := by
  unfold Peer.onNewGatewayResponse
  by_cases hworse : state.dtr ≠ 0 ∧ state.dtr ≤ event.dtr
  · left
    rw [if_pos hworse]
    exact ⟨hworse, rfl⟩
  · right
    rw [if_neg hworse]
    exact ⟨hworse, rfl⟩

theorem Sibling.onUpdateDtr_cases (state : RtForwarderState) (event : RtSiblUpdateDtr) :
    Sibling.onUpdateDtr state event = (state, []) ∨
      (event.dtr ≠ 0 ∧ (state.dtr = 0 ∨ event.dtr < state.dtr) ∧
        Sibling.onUpdateDtr state event =
          ({ state with dtr := event.dtr, isLocalRoot := false },
            if state.localState = .connected then [.wlSendPeerMessage (.updateDtr ⟨event.dtr⟩)]
            else [])) := by
  unfold Sibling.onUpdateDtr
  by_cases hzero : event.dtr = 0
  · left
    rw [if_pos hzero]
  · by_cases hbetter : state.dtr = 0 ∨ event.dtr < state.dtr
    · right
      rw [if_neg hzero, if_pos hbetter]
      exact ⟨hzero, hbetter, rfl⟩
    · left
      rw [if_neg hzero, if_neg hbetter]

theorem Sibling.onNewGatewayWinner_cases (state : RtForwarderState)
    (event : RtSiblNewGatewayWinner) :
    (state.dtr = 1 ∧ Sibling.onNewGatewayWinner state event =
      (state, [.wlSendPeerMessage (.newGatewayResponse ⟨state.nodeNetwork, state.dtr⟩)])) ∨
      (state.dtr ≠ 1 ∧ Sibling.onNewGatewayWinner state event =
        ({ state with
            globalState := .withNetwork
            isLocalRoot := false
            dtr := event.dtr + 1 },
          [.wlSendPeerMessage (.newGatewayResponse ⟨state.nodeNetwork, event.dtr + 1⟩)])) := by
  unfold Sibling.onNewGatewayWinner
  by_cases hroot : state.dtr = 1
  · left
    rw [if_pos hroot]
    exact ⟨hroot, rfl⟩
  · right
    rw [if_neg hroot]
    exact ⟨hroot, rfl⟩

end Forwarder

/-! ### One distance -/

theorem succ_ne_self (p : BitVec 32) : p + 1 ≠ p := by bv_omega

theorem handshake_not_agrees {self : Orientation} {state : RtForwarderState}
    {siblings : Orientation → RtForwarderState} {event : RtPeerHandshake}
    (adopted : state.globalState = .withoutNetwork) :
    ¬ (GatewayOffer.handshake event).Agrees self state siblings := by
  intro h
  have own := h.own
  simp only [GatewayOffer.handle, Peer.onHandshake, if_pos adopted, GatewayOffer.dtr] at own
  exact succ_ne_self event.dtr own.symm

/-- A new distance reaches the siblings as it is. -/
theorem updateDtr_agrees {self : Orientation} {state : RtForwarderState}
    (siblings : Orientation → RtForwarderState) {event : RtPeerUpdateDtr}
    (adopted : (GatewayOffer.updateDtr event).Adopted self state) :
    (GatewayOffer.updateDtr event).Agrees self state siblings := by
  rcases Peer.onUpdateDtr_cases self state event with ⟨-, hkeep⟩ | ⟨-, htake⟩
  · simp [GatewayOffer.Adopted, GatewayOffer.handle, hkeep] at adopted
  · constructor
    · simp only [GatewayOffer.handle, htake, GatewayOffer.dtr]
    · intro c _ _ ev hev haccepts
      simp only [GatewayOffer.handle, htake, siblEvents_cons, RtAction.siblEvent,
        Option.toList_none, List.nil_append, Option.toList_some, siblEvents_nil,
        List.append_nil, List.mem_singleton] at hev
      subst hev
      have hrefuse : Sibling.refuses (siblings c) (event.dtr + 1) = false := haccepts
      rw [hear_updateDtr, hrefuse]
      exact ⟨rfl, rfl⟩

/-- A winner's distance gets 1 more at the siblings. -/
theorem newGatewayResponse_agrees_iff {self : Orientation} {state : RtForwarderState}
    (siblings : Orientation → RtForwarderState) {event : RtPeerNewGatewayResponse}
    (adopted : (GatewayOffer.newGatewayResponse event).Adopted self state) :
    (GatewayOffer.newGatewayResponse event).Agrees self state siblings ↔
      ∀ c ∈ self.siblings, c ≠ .center → (siblings c).dtr = 1 := by
  rcases Peer.onNewGatewayResponse_cases self state event with ⟨-, hkeep⟩ | ⟨-, htake⟩
  · simp [GatewayOffer.Adopted, GatewayOffer.handle, hkeep] at adopted
  · have hevents : siblEvents ((GatewayOffer.newGatewayResponse event).handle self state).2 =
        [.newGatewayWinner ⟨event.externalNetwork, event.dtr + 1⟩] := by
      simp only [GatewayOffer.handle, htake]
      rfl
    constructor
    · intro h c hc hcenter
      by_contra haccepts
      have hsent : .newGatewayWinner ⟨event.externalNetwork, event.dtr + 1⟩ ∈
          siblEvents ((GatewayOffer.newGatewayResponse event).handle self state).2 := by
        rw [hevents]
        exact List.mem_singleton_self _
      have hdtr := (h.sibling c hc hcenter _ hsent haccepts).1
      rw [hear_newGatewayWinner, if_neg haccepts] at hdtr
      exact succ_ne_self (event.dtr + 1) hdtr
    · intro h
      constructor
      · simp only [GatewayOffer.handle, htake, GatewayOffer.dtr]
      · intro c hc hcenter ev hev haccepts
        rw [hevents, List.mem_singleton] at hev
        subst hev
        exact absurd (h c hc hcenter) haccepts

/-- The distances agree after `on_update_dtr`; after `on_new_gateway_response` if no sibling
accepts the winner; and never after `on_handshake`. -/
theorem gatewayOffer_agrees_iff (self : Orientation) (state : RtForwarderState)
    (siblings : Orientation → RtForwarderState) (offer : GatewayOffer)
    (adopted : offer.Adopted self state) :
    offer.Agrees self state siblings ↔
      (∃ event, offer = .updateDtr event) ∨
        ((∃ event, offer = .newGatewayResponse event) ∧
          ∀ c ∈ self.siblings, c ≠ .center → (siblings c).dtr = 1) := by
  cases offer with
  | handshake event => simp [handshake_not_agrees adopted]
  | updateDtr event => simp [updateDtr_agrees siblings adopted]
  | newGatewayResponse event => simp [newGatewayResponse_agrees_iff siblings adopted]

/-- A board without a distance hears 1 from its peer. -/
theorem gatewayOffer_agrees_update :
    (GatewayOffer.updateDtr ⟨1⟩).Agrees .north createForwarderCore fun _ => createForwarderCore :=
  (gatewayOffer_agrees_iff .north createForwarderCore (fun _ => createForwarderCore)
    (.updateDtr ⟨1⟩) (by unfold GatewayOffer.Adopted; decide)).mpr (.inl ⟨⟨1⟩, rfl⟩)

/-- A handshake with distance 1 leaves a new board at 1 and its siblings at 2. -/
theorem gatewayOffer_disagrees_handshake :
    ¬ ∀ (self : Orientation) (state : RtForwarderState)
      (siblings : Orientation → RtForwarderState) (offer : GatewayOffer),
      1 ≤ offer.dtr.toNat → offer.dtr.toNat < 2 ^ 16 - 2 → offer.Adopted self state →
        offer.Agrees self state siblings := by
  intro h
  have agrees := h .north createForwarderCore (fun _ => createForwarderCore)
    (.handshake ⟨⟨0x0A000000, 0xFF000000⟩, ⟨0x0A200000, 0xFFE00000⟩, 1⟩) (by decide) (by decide) rfl
  exact handshake_not_agrees rfl agrees

/-! ## Changes of the distance -/

/-- The events that set a distance. -/
inductive DistanceEvent where
  | peerUpdateDtr (event : RtPeerUpdateDtr)
  | newGatewayResponse (event : RtPeerNewGatewayResponse)
  | siblUpdateDtr (event : RtSiblUpdateDtr)
  | newGatewayWinner (event : RtSiblNewGatewayWinner)
  deriving DecidableEq

namespace DistanceEvent

def handle (self : Orientation) (state : RtForwarderState) :
    DistanceEvent → RtForwarderState × List RtAction
  | .peerUpdateDtr event => Peer.onUpdateDtr self state event
  | .newGatewayResponse event => Peer.onNewGatewayResponse self state event
  | .siblUpdateDtr event => Sibling.onUpdateDtr state event
  | .newGatewayWinner event => Sibling.onNewGatewayWinner state event

/-- The state after a sequence of events. -/
def run (self : Orientation) (state : RtForwarderState) (events : List DistanceEvent) :
    RtForwarderState :=
  events.foldl (fun state event => (event.handle self state).1) state

/-- A distance does not get worse, and the gateway moves to this board for a better one only. -/
structure Improves (board : Orientation) (state : RtForwarderState) (event : DistanceEvent) :
    Prop where
  distance : state.dtr ≠ 0 →
    (event.handle board state).1.dtr ≠ 0 ∧ (event.handle board state).1.dtr ≤ state.dtr
  gateway : .addGlobalRoute Network.zero board ∈ (event.handle board state).2 →
    state.dtr = 0 ∨ (event.handle board state).1.dtr < state.dtr

/-- At no event of the sequence does the distance get worse, and it never is worse than at the
start. -/
structure OnlyImproves (board : Orientation) (state : RtForwarderState)
    (events : List DistanceEvent) : Prop where
  each : ∀ first event rest, events = first ++ event :: rest →
    event.Improves board (run board state first)
  whole : ∀ first rest, events = first ++ rest → state.dtr ≠ 0 →
    (run board state first).dtr ≠ 0 ∧ (run board state first).dtr ≤ state.dtr

/-- A board with a distance refuses the event, or the new distance is a number that is smaller;
only a winner may repeat the old one. -/
def Better (state : RtForwarderState) : DistanceEvent → Prop
  | .peerUpdateDtr event => state.dtr = 0 ∨ event.dtr ≠ 0xFFFFFFFF
  | .newGatewayResponse event =>
      state.dtr = 0 ∨ state.dtr ≤ event.dtr ∨ event.dtr + 1 < state.dtr
  | .siblUpdateDtr _ => True
  | .newGatewayWinner event =>
      state.dtr = 0 ∨ state.dtr = 1 ∨ (event.dtr ≠ 0xFFFFFFFF ∧ event.dtr < state.dtr)

/-! ### One event -/

variable {self : Orientation} {state : RtForwarderState}

theorem improves_keep {event : DistanceEvent} (h : event.handle self state = (state, [])) :
    event.Improves self state := by
  constructor
  · intro hdtr
    rw [h]
    exact ⟨hdtr, BitVec.le_refl _⟩
  · intro hmem
    rw [h] at hmem
    exact absurd hmem List.not_mem_nil

theorem peerUpdateDtr_improves_iff (event : RtPeerUpdateDtr) :
    (peerUpdateDtr event).Improves self state ↔ (peerUpdateDtr event).Better state := by
  unfold Better
  rcases Peer.onUpdateDtr_cases self state event with ⟨hworse, hkeep⟩ | ⟨⟨-, hbetter⟩, htake⟩
  · apply iff_of_true
    · apply improves_keep
      exact hkeep
    · by_contra hwrap
      apply hworse
      constructor <;> bv_omega
  · have hdtr : ((peerUpdateDtr event).handle self state).1.dtr = event.dtr + 1 :=
      congrArg (·.1.dtr) htake
    constructor
    · intro h
      have hdistance := h.distance
      rw [hdtr] at hdistance
      bv_omega
    · intro h
      constructor
      · rw [hdtr]
        bv_omega
      · intro _
        rw [hdtr]
        exact hbetter

theorem newGatewayResponse_improves_iff (event : RtPeerNewGatewayResponse) :
    (newGatewayResponse event).Improves self state ↔ (newGatewayResponse event).Better state := by
  unfold Better
  rcases Peer.onNewGatewayResponse_cases self state event with ⟨hworse, hkeep⟩ | ⟨hbetter, htake⟩
  · apply iff_of_true
    · apply improves_keep
      exact hkeep
    · exact .inr (.inl hworse.2)
  · have hdtr : ((newGatewayResponse event).handle self state).1.dtr = event.dtr + 1 :=
      congrArg (·.1.dtr) htake
    have hroute : .addGlobalRoute Network.zero self ∈
        ((newGatewayResponse event).handle self state).2 := by
      show _ ∈ (Peer.onNewGatewayResponse self state event).2
      rw [htake]
      exact List.mem_cons_self
    constructor
    · intro h
      have hgateway := h.gateway hroute
      rw [hdtr] at hgateway
      exact hgateway.imp_right .inr
    · intro h
      constructor
      · rw [hdtr]
        bv_omega
      · intro _
        rw [hdtr]
        bv_omega

theorem siblUpdateDtr_improves (event : RtSiblUpdateDtr) :
    (siblUpdateDtr event).Improves self state := by
  rcases Sibling.onUpdateDtr_cases state event with hkeep | ⟨hnonzero, hbetter, htake⟩
  · apply improves_keep
    exact hkeep
  · have hdtr : ((siblUpdateDtr event).handle self state).1.dtr = event.dtr :=
      congrArg (·.1.dtr) htake
    constructor
    · rw [hdtr]
      intro hstate
      exact ⟨hnonzero, BitVec.le_of_lt (hbetter.resolve_left hstate)⟩
    · rw [hdtr]
      exact fun _ => hbetter

theorem newGatewayWinner_improves_iff (event : RtSiblNewGatewayWinner) :
    (newGatewayWinner event).Improves self state ↔ (newGatewayWinner event).Better state := by
  unfold Better
  have hroute : .addGlobalRoute Network.zero self ∉
      ((newGatewayWinner event).handle self state).2 := by
    show _ ∉ (Sibling.onNewGatewayWinner state event).2
    unfold Sibling.onNewGatewayWinner
    split <;> simp
  rcases Sibling.onNewGatewayWinner_cases state event with ⟨hroot, hkeep⟩ | ⟨hother, htake⟩
  · have hdtr : ((newGatewayWinner event).handle self state).1.dtr = state.dtr :=
      congrArg (·.1.dtr) hkeep
    refine iff_of_true ⟨?_, fun hmem => absurd hmem hroute⟩ (.inr (.inl hroot))
    rw [hdtr]
    exact fun h => ⟨h, BitVec.le_refl _⟩
  · have hdtr : ((newGatewayWinner event).handle self state).1.dtr = event.dtr + 1 :=
      congrArg (·.1.dtr) htake
    constructor
    · intro h
      have hdistance := h.distance
      rw [hdtr] at hdistance
      bv_omega
    · intro h
      refine ⟨?_, fun hmem => absurd hmem hroute⟩
      rw [hdtr]
      bv_omega

theorem improves_iff (event : DistanceEvent) : event.Improves self state ↔ event.Better state := by
  cases event with
  | peerUpdateDtr event => exact peerUpdateDtr_improves_iff event
  | newGatewayResponse event => exact newGatewayResponse_improves_iff event
  | siblUpdateDtr event => exact iff_of_true (siblUpdateDtr_improves event) trivial
  | newGatewayWinner event => exact newGatewayWinner_improves_iff event

/-! ### A sequence of events -/

theorem run_append_singleton (events : List DistanceEvent) (event : DistanceEvent) :
    run self state (events ++ [event]) = (event.handle self (run self state events)).1 := by
  rw [run, List.foldl_append]
  rfl

theorem run_improves (events : List DistanceEvent)
    (each : ∀ first event rest, events = first ++ event :: rest →
      event.Improves self (run self state first)) (hdtr : state.dtr ≠ 0) :
    (run self state events).dtr ≠ 0 ∧ (run self state events).dtr ≤ state.dtr := by
  induction events using List.reverseRecOn with
  | nil => exact ⟨hdtr, BitVec.le_refl _⟩
  | append_singleton events event ih =>
      obtain ⟨hnonzero, hle⟩ := ih fun first ev rest heq =>
        each first ev (rest ++ [event]) (by rw [heq, List.append_assoc, List.cons_append])
      have hlast := (each events event [] rfl).distance hnonzero
      rw [run_append_singleton]
      exact ⟨hlast.1, BitVec.le_trans hlast.2 hle⟩

end DistanceEvent

open DistanceEvent

/-- Distances and gateways only improve along a sequence exactly if at each event the board has
no distance, or refuses it, or is offered a smaller one without a wrap. -/
theorem distanceEvents_onlyImprove_iff (self : Orientation) (state : RtForwarderState)
    (events : List DistanceEvent) :
    OnlyImproves self state events ↔
      ∀ first event rest, events = first ++ event :: rest →
        event.Better (run self state first) := by
  constructor
  · intro h first event rest heq
    exact (improves_iff event).mp (h.each first event rest heq)
  · intro h
    have each : ∀ first event rest, events = first ++ event :: rest →
        event.Improves self (run self state first) :=
      fun first event rest heq => (improves_iff event).mpr (h first event rest heq)
    constructor
    · exact each
    · intro first rest heq hdtr
      apply run_improves first _ hdtr
      intro before event after hbefore
      apply each before event (after ++ rest)
      rw [heq, hbefore, List.append_assoc, List.cons_append]

/-- A winner with distance 7 takes a board from 2 to 8. -/
theorem distanceEvents_winnerWorse :
    ¬ ∀ (self : Orientation) (state : RtForwarderState) (events : List DistanceEvent),
      OnlyImproves self state events := by
  intro h
  have improves := (h .north { createForwarderCore with dtr := 2 }
    [.newGatewayWinner ⟨Network.zero, 7⟩]).whole [.newGatewayWinner ⟨Network.zero, 7⟩] [] rfl
      (by decide)
  exact absurd improves.2 (by decide)

end I4A
