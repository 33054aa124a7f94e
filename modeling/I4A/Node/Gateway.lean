import I4A.Node.Hearing

/-! # One gateway per node

The forwarders of a node other than the root's, under any sequence of peer
events. The argument looks at what each board will be once it has handled the
sibling events it has stored: there a peer event and all the answers to its
broadcast are one step. A board that keeps acting as the gateway through such a
step while another one takes over is what the condition on the runs excludes.
-/

namespace I4A

/-- What a board will be once it has handled its stored sibling events. -/
def Node.settled (n : Node) (o : Orientation) : RtRole := settleRole o (n.roles o) (n.inbox o)

/-- All sibling broadcasts have been handled. -/
def Node.Drained (n : Node) : Prop := ∀ o, n.inbox o = []

def RtRole.isLocalRoot : RtRole → Bool
  | .forwarder state => state.isLocalRoot
  | _ => false

/-- The step leaves no two boards as gateway: no board that is the local root, once the stored
sibling events are handled, is overridden. -/
def Node.keepsGateway (n : Node) : NodeLabel → Bool
  | .sibl _ => true
  | .peer o ev => Orientation.all.all fun c =>
      match n.roles o, n.settled c with
      | .forwarder self, .forwarder other =>
          c = o || !(other.isLocalRoot && Forwarder.Peer.overrides self other ev)
      | _, _ => true

open Forwarder

/-! ## The invariant -/

/-- At most one board is the local root, and the default gateway names it. -/
structure OneGateway (roles : Orientation → RtRole) (gateway : UInt8) : Prop where
  unique : ∀ a b, (roles a).isLocalRoot = true → (roles b).isLocalRoot = true → a = b
  gateway : ∀ a, (roles a).isLocalRoot = true → gateway = a.output

/-- The invariant on settled boards. A board that is still without network has not distance 1
and has no sibling with a network, so a provisioning handshake finds no one to override. -/
structure Settled (roles : Orientation → RtRole) (gateway : UInt8) : Prop where
  home : ∃ state, roles .center = .home state
  forwarder : ∀ o, o ≠ .center → ∃ state, roles o = .forwarder state
  one : OneGateway roles gateway
  early : ∀ o state, roles o = .forwarder state → state.globalState = .withoutNetwork →
    state.dtr ≠ 1
  provisioned :
    (∀ o state, roles o = .forwarder state → state.globalState ≠ .withoutNetwork) ∨
      ∀ o state, roles o = .forwarder state → state.globalState ≠ .withNetwork

theorem OneGateway.takeover {roles : Orientation → RtRole} {b : Orientation}
    (demoted : ∀ c, c ≠ b → (roles c).isLocalRoot = false) : OneGateway roles b.output := by
  have only : ∀ c, (roles c).isLocalRoot = true → c = b := by
    intro c hc
    by_contra hne
    rw [demoted c hne] at hc
    cases hc
  exact ⟨fun a c ha hc => (only a ha).trans (only c hc).symm, fun a ha => by rw [only a ha]⟩

theorem OneGateway.shrink {roles roles' : Orientation → RtRole} {gateway gateway' : UInt8}
    (h : OneGateway roles gateway)
    (fewer : ∀ c, (roles' c).isLocalRoot = true → (roles c).isLocalRoot = true)
    (same : ∀ c, (roles' c).isLocalRoot = true → gateway = c.output → gateway' = c.output) :
    OneGateway roles' gateway' :=
  ⟨fun a c ha hc => h.unique a c (fewer a ha) (fewer c hc),
    fun a ha => same a ha (h.gateway a (fewer a ha))⟩

/-- Board `b` handles a peer event and the others hear what it broadcast. -/
structure PeerMove (roles roles' : Orientation → RtRole) (b : Orientation)
    (state' : RtForwarderState) (events : List RtSiblEvent) : Prop where
  self : roles' b = .forwarder state'
  other : ∀ c, c ≠ b → roles' c = settleRole c (roles c) events

namespace PeerMove

variable {roles roles' : Orientation → RtRole} {b : Orientation} {state' : RtForwarderState}
  {events : List RtSiblEvent} {gateway : UInt8}

theorem home (move : PeerMove roles roles' b state' events) (hb : b ≠ .center)
    (h : Settled roles gateway) : ∃ state, roles' .center = .home state := by
  obtain ⟨state, hcenter⟩ := h.home
  rw [move.other .center (Ne.symm hb), hcenter]
  exact settleRole_home .center state events

theorem forwarder (move : PeerMove roles roles' b state' events) (h : Settled roles gateway)
    (o : Orientation) (ho : o ≠ .center) : ∃ state, roles' o = .forwarder state := by
  by_cases hob : o = b
  · subst hob
    exact ⟨state', move.self⟩
  · obtain ⟨state, hstate⟩ := h.forwarder o ho
    rw [move.other o hob, hstate, settleRole_forwarder]
    exact ⟨_, rfl⟩

/-- Every forwarder after the move is `b` or has heard the broadcast. -/
theorem view (move : PeerMove roles roles' b state' events) (h : Settled roles gateway)
    {c : Orientation} {state : RtForwarderState} (hc : roles' c = .forwarder state) :
    (c = b ∧ state = state') ∨
      (c ≠ b ∧ ∃ old, roles c = .forwarder old ∧ state = events.foldl (hear c) old) := by
  by_cases hcb : c = b
  · subst hcb
    rw [move.self] at hc
    exact .inl ⟨rfl, (RtRole.forwarder.inj hc).symm⟩
  · right
    refine ⟨hcb, ?_⟩
    rw [move.other c hcb] at hc
    by_cases hcenter : c = .center
    · subst hcenter
      obtain ⟨old, hold⟩ := h.home
      obtain ⟨new, hnew⟩ := settleRole_home .center old events
      rw [hold, hnew] at hc
      cases hc
    · obtain ⟨old, hold⟩ := h.forwarder c hcenter
      rw [hold, settleRole_forwarder] at hc
      exact ⟨old, hold, (RtRole.forwarder.inj hc).symm⟩

/-- A board that is the local root after the move. -/
theorem localRoot (move : PeerMove roles roles' b state' events) (h : Settled roles gateway)
    {c : Orientation} (hc : (roles' c).isLocalRoot = true) :
    (c = b ∧ state'.isLocalRoot = true) ∨
      (c ≠ b ∧ ∃ old, roles c = .forwarder old ∧
        (events.foldl (hear c) old).isLocalRoot = true) := by
  cases hrole : roles' c with
  | forwarder state =>
      rw [hrole] at hc
      rcases move.view h hrole with ⟨hcb, rfl⟩ | ⟨hcb, old, hold, rfl⟩
      · exact .inl ⟨hcb, hc⟩
      · exact .inr ⟨hcb, old, hold, hc⟩
  | home state =>
      rw [hrole] at hc
      cases hc
  | root state =>
      rw [hrole] at hc
      cases hc

theorem takeover (move : PeerMove roles roles' b state' events) (h : Settled roles gateway)
    (stops : ∀ c old, c ≠ b → roles c = .forwarder old →
      (events.foldl (hear c) old).isLocalRoot = false) : OneGateway roles' b.output := by
  apply OneGateway.takeover
  intro c hne
  by_contra hc
  rcases move.localRoot h (by simpa using hc) with ⟨hcb, -⟩ | ⟨-, old, hold, hroot⟩
  · exact hne hcb
  · rw [stops c old hne hold] at hroot
    cases hroot

/-- The whole invariant after the move, from the gateway and the states of the boards. -/
theorem settled (move : PeerMove roles roles' b state' events) (hb : b ≠ .center)
    (h : Settled roles gateway) {gateway' : UInt8} (one : OneGateway roles' gateway')
    (early : state'.globalState = .withoutNetwork → state'.dtr ≠ 1)
    (earlyHear : ∀ c old, roles c = .forwarder old →
      (events.foldl (hear c) old).globalState = .withoutNetwork →
      (events.foldl (hear c) old).dtr ≠ 1)
    (provisioned :
      (state'.globalState ≠ .withoutNetwork ∧ ∀ c old, c ≠ b → roles c = .forwarder old →
        (events.foldl (hear c) old).globalState ≠ .withoutNetwork) ∨
      (state'.globalState ≠ .withNetwork ∧ ∀ c old, c ≠ b → roles c = .forwarder old →
        (events.foldl (hear c) old).globalState ≠ .withNetwork)) :
    Settled roles' gateway' where
  home := move.home hb h
  forwarder := move.forwarder h
  one := one
  early o state hstate := by
    rcases move.view h hstate with ⟨-, rfl⟩ | ⟨-, old, hold, rfl⟩
    · exact early
    · exact earlyHear o old hold
  provisioned := by
    rcases provisioned with ⟨hself, hother⟩ | ⟨hself, hother⟩
    · left
      intro o state hstate
      rcases move.view h hstate with ⟨-, rfl⟩ | ⟨hne, old, hold, rfl⟩
      · exact hself
      · exact hother o old hne hold
    · right
      intro o state hstate
      rcases move.view h hstate with ⟨-, rfl⟩ | ⟨hne, old, hold, rfl⟩
      · exact hself
      · exact hother o old hne hold

end PeerMove

/-! ## One lemma for each peer event -/

namespace Settled

variable {roles roles' : Orientation → RtRole} {b : Orientation} {self : RtForwarderState}
  {gateway : UInt8}

/-- A board that keeps its part in the network and broadcasts nothing. -/
theorem quiet (h : Settled roles gateway) (hb : b ≠ .center) (hself : roles b = .forwarder self)
    {self' : RtForwarderState} {gateway' : UInt8}
    (move : PeerMove roles roles' b self' []) (hroot : self'.isLocalRoot = self.isLocalRoot)
    (hglobal : self'.globalState = self.globalState) (hdtr : self'.dtr = self.dtr)
    (hgateway : gateway' = gateway ∨ gateway' = b.output ∧
      ∀ c old, c ≠ b → roles c = .forwarder old → old.isLocalRoot = false) :
    Settled roles' gateway' := by
  have fewer : ∀ c, (roles' c).isLocalRoot = true → (roles c).isLocalRoot = true := by
    intro c hc
    rcases move.localRoot h hc with ⟨rfl, hroot'⟩ | ⟨-, old, hold, hroot'⟩
    · rw [hself]
      exact hroot.symm.trans hroot'
    · rw [hold]
      exact hroot'
  refine move.settled hb h ?_ ?_ (fun c old hold => h.early c old hold) ?_
  · refine h.one.shrink fewer fun c hc hgw => ?_
    rcases hgateway with rfl | ⟨rfl, hnone⟩
    · exact hgw
    · rcases move.localRoot h hc with ⟨rfl, -⟩ | ⟨hne, old, hold, hroot'⟩
      · rfl
      · rw [List.foldl_nil, hnone c old hne hold] at hroot'
        cases hroot'
  · rw [hglobal, hdtr]
    exact h.early b self hself
  · rw [hglobal]
    rcases h.provisioned with hp | hp
    · exact .inl ⟨hp b self hself, fun c old _ hold => hp c old hold⟩
    · exact .inr ⟨hp b self hself, fun c old _ hold => hp c old hold⟩

/-- A handshake: with a network already, it writes a route; without one, everybody is
provisioned and only this board is the local root. -/
theorem handshake (h : Settled roles gateway) (hb : b ≠ .center)
    (hself : roles b = .forwarder self) {event : RtPeerHandshake}
    (safe : ∀ c old, c ≠ b → roles c = .forwarder old → old.isLocalRoot = true →
      Peer.overrides self old (.handshake event) = false)
    (move : PeerMove roles roles' b (Peer.onHandshake b self event).1
      (siblEvents (Peer.onHandshake b self event).2)) :
    Settled roles' (gatewayAfter gateway (Peer.onHandshake b self event).2) := by
  by_cases hwithout : self.globalState = .withoutNetwork
  · rw [Peer.onHandshake, if_pos hwithout] at move ⊢
    simp only [siblEvents_cons, siblEvents_nil, RtAction.siblEvent, Option.toList_none,
      Option.toList_some, List.nil_append, List.append_nil] at move
    have hnone : ∀ c old, roles c = .forwarder old → old.globalState ≠ .withNetwork :=
      h.provisioned.resolve_left fun hp => hp b self hself hwithout
    have hheard : ∀ c old, roles c = .forwarder old →
        (hear c old (.provision (Peer.provisionOf b event))).isLocalRoot = false ∧
          (hear c old (.provision (Peer.provisionOf b event))).globalState = .withNetwork :=
      fun c old hold => hear_provision (hnone c old hold)
    refine move.settled hb h ?_ (by simp) (fun c old hold hglobal => ?_)
      (.inl ⟨by simp, fun c old _ hold hglobal => ?_⟩)
    · exact move.takeover h fun c old _ hold => (hheard c old hold).1
    · have hwith := (hheard c old hold).2.symm.trans hglobal
      cases hwith
    · have hwith := (hheard c old hold).2.symm.trans hglobal
      cases hwith
  · rw [Peer.onHandshake, if_neg hwithout] at move ⊢
    refine h.quiet hb hself move rfl rfl rfl ?_
    simp only [gatewayAfter_cons, gatewayAfter_nil, RtAction.gateway]
    by_cases hzero : event.externalNetwork = Network.zero
    · right
      refine ⟨if_pos hzero, fun c old hne hold => ?_⟩
      by_contra hroot
      have hsafe := safe c old hne hold (by simpa using hroot)
      simp [Peer.overrides, hwithout, hzero] at hsafe
    · exact .inl (if_neg hzero)

/-- A DTR update: an accepted one makes this board the local root and demotes every sibling
that does not refuse the new distance. -/
theorem updateDtr (h : Settled roles gateway) (hb : b ≠ .center)
    (hself : roles b = .forwarder self) {event : RtPeerUpdateDtr}
    (safe : ∀ c old, c ≠ b → roles c = .forwarder old → old.isLocalRoot = true →
      Peer.overrides self old (.updateDtr event) = false)
    (move : PeerMove roles roles' b (Peer.onUpdateDtr b self event).1
      (siblEvents (Peer.onUpdateDtr b self event).2)) :
    Settled roles' (gatewayAfter gateway (Peer.onUpdateDtr b self event).2) := by
  by_cases hzero : event.dtr = 0
  · rw [Peer.onUpdateDtr, if_pos hzero] at move ⊢
    exact h.quiet hb hself move rfl rfl rfl (.inl rfl)
  by_cases hbetter : self.dtr = 0 ∨ event.dtr + 1 < self.dtr
  · rw [Peer.onUpdateDtr, if_neg hzero, if_pos hbetter] at move ⊢
    simp only [siblEvents_cons, siblEvents_nil, RtAction.siblEvent, Option.toList_none,
      Option.toList_some, List.nil_append, List.append_nil] at move
    have hone : event.dtr + 1 ≠ 1 := fun heq => hzero (by simpa using heq)
    have hheard : ∀ c old, roles c = .forwarder old →
        hear c old (.updateDtr ⟨event.dtr + 1⟩) = old ∨
          hear c old (.updateDtr ⟨event.dtr + 1⟩) =
            { old with dtr := event.dtr + 1, isLocalRoot := false } := by
      intro c old _
      rw [hear_updateDtr]
      split
      · exact .inl rfl
      · exact .inr rfl
    refine move.settled hb h ?_ (fun _ => hone) (fun c old hold hglobal => ?_) ?_
    · apply move.takeover h
      intro c old hne hold
      rw [List.foldl_cons, List.foldl_nil, hear_updateDtr]
      split
      · next hrefuse =>
        by_contra hroot
        have hsafe := safe c old hne hold (by simpa using hroot)
        have hoverride : Peer.overrides self old (.updateDtr event) = true := by
          rw [Peer.overrides, decide_eq_true_eq]
          exact ⟨hzero, hbetter, hrefuse⟩
        rw [hoverride] at hsafe
        cases hsafe
      · rfl
    · rw [List.foldl_cons, List.foldl_nil] at hglobal ⊢
      rcases hheard c old hold with heq | heq <;> rw [heq] at hglobal ⊢
      · exact h.early c old hold hglobal
      · exact hone
    · have hglobal : ∀ c old, roles c = .forwarder old →
          ([RtSiblEvent.updateDtr ⟨event.dtr + 1⟩].foldl (hear c) old).globalState =
            old.globalState := by
        intro c old hold
        rw [List.foldl_cons, List.foldl_nil]
        rcases hheard c old hold with heq | heq <;> rw [heq]
      rcases h.provisioned with hp | hp
      · exact .inl ⟨hp b self hself, fun c old _ hold => by
          rw [hglobal c old hold]
          exact hp c old hold⟩
      · exact .inr ⟨hp b self hself, fun c old _ hold => by
          rw [hglobal c old hold]
          exact hp c old hold⟩
  · rw [Peer.onUpdateDtr, if_neg hzero, if_neg hbetter] at move ⊢
    exact h.quiet hb hself move rfl rfl rfl (.inl rfl)

/-- A broadcast gateway request: boards may lose their distance, none its part as gateway. -/
theorem requested (h : Settled roles gateway) (hb : b ≠ .center)
    (hself : roles b = .forwarder self) {self' : RtForwarderState} {gateway' : UInt8}
    {event : RtSiblSendNewGatewayRequest}
    (move : PeerMove roles roles' b self' [.sendNewGatewayRequest event])
    (hroot : self'.isLocalRoot = true → self.isLocalRoot = true)
    (hstate : self'.globalState = self.globalState ∧ self'.dtr = self.dtr ∨
      self'.globalState = .onGwRequest)
    (hgateway : gateway' = gateway ∨ gateway' = b.output ∧
      ∀ c old, c ≠ b → roles c = .forwarder old → old.isLocalRoot = false) :
    Settled roles' gateway' := by
  have hheard : ∀ c old, [RtSiblEvent.sendNewGatewayRequest event].foldl (hear c) old = old ∨
      [RtSiblEvent.sendNewGatewayRequest event].foldl (hear c) old =
        { old with globalState := .onGwRequest, dtr := 0 } := by
    intro c old
    rw [List.foldl_cons, List.foldl_nil]
    exact hear_sendNewGatewayRequest c old event
  have hsame : ∀ c old, ([RtSiblEvent.sendNewGatewayRequest event].foldl (hear c)
      old).isLocalRoot = old.isLocalRoot := by
    intro c old
    rcases hheard c old with heq | heq <;> rw [heq]
  have fewer : ∀ c, (roles' c).isLocalRoot = true → (roles c).isLocalRoot = true := by
    intro c hc
    rcases move.localRoot h hc with ⟨rfl, hroot'⟩ | ⟨-, old, hold, hroot'⟩
    · rw [hself]
      exact hroot hroot'
    · rw [hold]
      exact (hsame c old).symm.trans hroot'
  refine move.settled hb h ?_ ?_ (fun c old hold hglobal => ?_) ?_
  · refine h.one.shrink fewer fun c hc hgw => ?_
    rcases hgateway with rfl | ⟨rfl, hnone⟩
    · exact hgw
    · rcases move.localRoot h hc with ⟨rfl, -⟩ | ⟨hne, old, hold, hroot'⟩
      · rfl
      · rw [hsame c old, hnone c old hne hold] at hroot'
        cases hroot'
  · rcases hstate with ⟨hglobal, hdtr⟩ | hglobal
    · rw [hglobal, hdtr]
      exact h.early b self hself
    · rw [hglobal]
      exact fun hcontra => by cases hcontra
  · rcases hheard c old with heq | heq <;> rw [heq] at hglobal ⊢
    · exact h.early c old hold hglobal
    · cases hglobal
  · have hglobal : ∀ c old, ([RtSiblEvent.sendNewGatewayRequest event].foldl (hear c)
        old).globalState = old.globalState ∨
        ([RtSiblEvent.sendNewGatewayRequest event].foldl (hear c) old).globalState =
          .onGwRequest := by
      intro c old
      rcases hheard c old with heq | heq <;> rw [heq]
      · exact .inl rfl
      · exact .inr rfl
    have hself' : self'.globalState = self.globalState ∨ self'.globalState = .onGwRequest :=
      hstate.imp And.left id
    rcases h.provisioned with hp | hp
    · refine .inl ⟨?_, fun c old _ hold => ?_⟩
      · rcases hself' with heq | heq <;> rw [heq]
        · exact hp b self hself
        · decide
      · rcases hglobal c old with heq | heq <;> rw [heq]
        · exact hp c old hold
        · decide
    · refine .inr ⟨?_, fun c old _ hold => ?_⟩
      · rcases hself' with heq | heq <;> rw [heq]
        · exact hp b self hself
        · decide
      · rcases hglobal c old with heq | heq <;> rw [heq]
        · exact hp c old hold
        · decide

theorem requestRoutes_gateway (gateway : UInt8) (b : Orientation) (hag : HagNetworks) :
    gatewayAfter gateway (Peer.requestRoutes b hag hag.toList) =
      if hag[0].addr ≠ 0 ∧ Network.zero ∈ hag.toList then b.output else gateway := by
  rw [Peer.requestRoutes_eq]
  by_cases hfirst : hag[0].addr = 0
  · rw [if_pos hfirst, if_neg fun h => h.1 hfirst]
    rfl
  · rw [if_neg hfirst, gatewayAfter_routes]
    simp only [ne_eq, hfirst, not_false_eq_true, true_and]

theorem siblEvents_requestRoutes (b : Orientation) (hag : HagNetworks) :
    siblEvents (Peer.requestRoutes b hag hag.toList) = [] := by
  rw [Peer.requestRoutes_eq]
  split
  · rfl
  · exact siblEvents_routes _ b

theorem requestRoutes_broadcast (gateway : UInt8) (b : Orientation) (hag : HagNetworks)
    (ev : RtSiblEvent) :
    gatewayAfter gateway (Peer.requestRoutes b hag hag.toList ++ [.rsBroadcast ev]) =
      gatewayAfter gateway (Peer.requestRoutes b hag hag.toList) := by
  rw [gatewayAfter_append]
  rfl

theorem newGatewayRequest (h : Settled roles gateway) (hb : b ≠ .center)
    (hself : roles b = .forwarder self) {event : RtPeerNewGatewayRequest}
    (safe : ∀ c old, c ≠ b → roles c = .forwarder old → old.isLocalRoot = true →
      Peer.overrides self old (.newGatewayRequest event) = false)
    (move : PeerMove roles roles' b (Peer.onNewGatewayRequest b self event).1
      (siblEvents (Peer.onNewGatewayRequest b self event).2)) :
    Settled roles' (gatewayAfter gateway (Peer.onNewGatewayRequest b self event).2) := by
  have hgateway : ∀ gateway',
      gateway' = gatewayAfter gateway
        (Peer.requestRoutes b event.hagNetworks event.hagNetworks.toList) →
      gateway' = gateway ∨ gateway' = b.output ∧
        ∀ c old, c ≠ b → roles c = .forwarder old → old.isLocalRoot = false := by
    rintro gateway' rfl
    rw [requestRoutes_gateway]
    by_cases hwrites : event.hagNetworks[0].addr ≠ 0 ∧ Network.zero ∈ event.hagNetworks.toList
    · refine .inr ⟨if_pos hwrites, fun c old hne hold => ?_⟩
      by_contra hroot
      have hsafe := safe c old hne hold (by simpa using hroot)
      have hoverride : Peer.overrides self old (.newGatewayRequest event) = true := by
        rw [Peer.overrides, decide_eq_true_eq]
        exact hwrites
      rw [hoverride] at hsafe
      cases hsafe
    · exact .inl (if_neg hwrites)
  rw [Peer.onNewGatewayRequest] at move ⊢
  by_cases hone : self.dtr = 1
  · rw [if_pos hone] at move ⊢
    simp only [siblEvents_append, siblEvents_requestRoutes, List.nil_append] at move
    exact h.requested hb hself move id (.inl ⟨rfl, rfl⟩)
      (hgateway _ (requestRoutes_broadcast _ _ _ _))
  · by_cases hasked : self.globalState = .onGwRequest
    · rw [if_neg hone, if_pos hasked] at move ⊢
      simp only [siblEvents_requestRoutes] at move
      exact h.quiet hb hself move rfl rfl rfl (hgateway _ rfl)
    · rw [if_neg hone, if_neg hasked] at move ⊢
      simp only [siblEvents_append, siblEvents_requestRoutes, List.nil_append] at move
      exact h.requested hb hself move id (.inr rfl) (hgateway _ (requestRoutes_broadcast _ _ _ _))

/-- A gateway response: an accepted one makes this board the local root and demotes every
sibling whose distance is not 1. -/
theorem newGatewayResponse (h : Settled roles gateway) (hb : b ≠ .center)
    (hself : roles b = .forwarder self) {event : RtPeerNewGatewayResponse}
    (safe : ∀ c old, c ≠ b → roles c = .forwarder old → old.isLocalRoot = true →
      Peer.overrides self old (.newGatewayResponse event) = false)
    (move : PeerMove roles roles' b (Peer.onNewGatewayResponse b self event).1
      (siblEvents (Peer.onNewGatewayResponse b self event).2)) :
    Settled roles' (gatewayAfter gateway (Peer.onNewGatewayResponse b self event).2) := by
  by_cases hworse : self.dtr ≠ 0 ∧ self.dtr ≤ event.dtr
  · rw [Peer.onNewGatewayResponse, if_pos hworse] at move ⊢
    exact h.quiet hb hself move rfl rfl rfl (.inl rfl)
  · rw [Peer.onNewGatewayResponse, if_neg hworse] at move ⊢
    simp only [siblEvents_cons, siblEvents_nil, RtAction.siblEvent, Option.toList_none,
      Option.toList_some, List.nil_append, List.append_nil] at move
    have hwith : ∀ c old, roles c = .forwarder old →
        ([RtSiblEvent.newGatewayWinner ⟨event.externalNetwork, event.dtr + 1⟩].foldl (hear c)
          old).globalState ≠ .withoutNetwork := by
      intro c old hold hglobal
      rw [List.foldl_cons, List.foldl_nil, hear_newGatewayWinner] at hglobal
      split at hglobal
      · next hone => exact h.early c old hold hglobal hone
      · cases hglobal
    refine move.settled hb h ?_ (by simp) (fun c old hold hglobal => ?_)
      (.inl ⟨by simp, fun c old _ hold => hwith c old hold⟩)
    · apply move.takeover h
      intro c old hne hold
      rw [List.foldl_cons, List.foldl_nil, hear_newGatewayWinner]
      split
      · next hone =>
        by_contra hroot
        have hsafe := safe c old hne hold (by simpa using hroot)
        have hoverride : Peer.overrides self old (.newGatewayResponse event) = true := by
          rw [Peer.overrides, decide_eq_true_eq]
          exact ⟨hworse, hone⟩
        rw [hoverride] at hsafe
        cases hsafe
      · rfl
    · exact absurd hglobal (hwith c old hold)

theorem peerLost (h : Settled roles gateway) (hb : b ≠ .center)
    (hself : roles b = .forwarder self)
    (move : PeerMove roles roles' b (Peer.onPeerLost b self).1
      (siblEvents (Peer.onPeerLost b self).2)) :
    Settled roles' (gatewayAfter gateway (Peer.onPeerLost b self).2) := by
  by_cases hroot : self.isLocalRoot = true
  · rw [Peer.onPeerLost, if_pos hroot] at move ⊢
    simp only [siblEvents_cons, siblEvents_nil, RtAction.siblEvent, Option.toList_none,
      Option.toList_some, List.nil_append, List.append_nil] at move
    exact h.requested hb hself move (fun hfalse => by cases hfalse) (.inr rfl) (.inl rfl)
  · rw [Peer.onPeerLost, if_neg hroot] at move ⊢
    exact h.quiet hb hself move rfl rfl rfl (.inl rfl)

/-- Any peer event that overrides no local root. -/
theorem peer (h : Settled roles gateway) (hb : b ≠ .center) (hself : roles b = .forwarder self)
    {ev : RtPeerEvent} {result : RtRole × List RtAction}
    (hd : dispatchPeer b (.forwarder self) ev = some result)
    (safe : ∀ c old, c ≠ b → roles c = .forwarder old → old.isLocalRoot = true →
      Peer.overrides self old ev = false)
    (hroles : roles' b = result.1)
    (hother : ∀ c, c ≠ b → roles' c = settleRole c (roles c) (siblEvents result.2)) :
    Settled roles' (gatewayAfter gateway result.2) := by
  cases ev with
  | handshake event =>
      cases hd
      exact h.handshake hb hself safe ⟨hroles, hother⟩
  | updateDtr event =>
      cases hd
      exact h.updateDtr hb hself safe ⟨hroles, hother⟩
  | newGatewayRequest event =>
      cases hd
      exact h.newGatewayRequest hb hself safe ⟨hroles, hother⟩
  | newGatewayResponse event =>
      cases hd
      exact h.newGatewayResponse hb hself safe ⟨hroles, hother⟩
  | connected connection =>
      cases hd
      have move : PeerMove roles roles' b (Peer.onPeerConnected self).1 [] := ⟨hroles, hother⟩
      exact h.quiet hb hself move rfl rfl rfl (.inl rfl)
  | lost connection =>
      cases hd
      exact h.peerLost hb hself ⟨hroles, hother⟩
  | unknown id => cases hd

end Settled

/-! ## Runs of the node -/

/-- The boards of a node other than the root's, and the invariant on their settled roles. -/
structure Node.Inv (n : Node) : Prop where
  home : ∃ state, n.roles .center = .home state
  forwarder : ∀ o, o ≠ .center → ∃ state, n.roles o = .forwarder state
  settled : Settled n.settled n.table.defaultGateway

namespace Node

variable {n u : Node} {o : Orientation}

theorem Inv.kind (h : n.Inv) (o : Orientation) :
    (∃ state, n.roles o = .home state) ∨ ∃ state, n.roles o = .forwarder state := by
  by_cases ho : o = .center
  · subst ho
    exact .inl h.home
  · exact .inr (h.forwarder o ho)

/-- A sibling step is invisible on the settled boards. -/
theorem Inv.sibl (h : n.Inv) (hs : n.step (.sibl o) = some u) : u.Inv := by
  obtain ⟨ev, rest, role, actions, hin, hd, rfl⟩ := step_sibl hs
  obtain ⟨hsilent, hgateway⟩ := sibl_silent (h.kind o) hd
  have hrole := hear_kind hd
  have hroles : ∀ o', o' ≠ o →
      ((n.pop o rest).act o (role, actions)).roles o' = n.roles o' := fun o' ho' =>
    act_roles_of_ne _ ho' _
  have hsettled : ((n.pop o rest).act o (role, actions)).settled = n.settled := by
    funext o'
    by_cases ho' : o' = o
    · subst ho'
      rw [Node.settled, act_roles_self, act_inbox_self, pop_inbox_self, Node.settled, hin,
        settleRole_cons, ← hrole]
    · rw [Node.settled, hroles o' ho', act_inbox_of_ne _ ho', pop_inbox_of_ne _ ho', hsilent,
        List.append_nil, Node.settled]
  refine ⟨?_, fun o' ho' => ?_, ?_⟩
  · by_cases ho : .center = o
    · subst ho
      obtain ⟨state, hstate⟩ := h.home
      rw [act_roles_self, hrole, hstate]
      exact hearRole_home _ state ev
    · rw [hroles _ ho]
      exact h.home
  · by_cases ho : o' = o
    · subst ho
      obtain ⟨state, hstate⟩ := h.forwarder o' ho'
      rw [act_roles_self, hrole, hstate, hearRole_forwarder]
      exact ⟨_, rfl⟩
    · rw [hroles _ ho]
      exact h.forwarder o' ho'
  · rw [hsettled, act_table, pop_table, tableAfter_defaultGateway, hgateway]
    exact h.settled

/-- A peer step that overrides no local root. -/
theorem Inv.peer (h : n.Inv) {ev : RtPeerEvent} (hs : n.step (.peer o ev) = some u)
    (keeps : n.keepsGateway (.peer o ev) = true) : u.Inv := by
  obtain ⟨hin, role, actions, hd, rfl⟩ := step_peer hs
  have hroles : ∀ o', o' ≠ o → (n.act o (role, actions)).roles o' = n.roles o' :=
    fun o' ho' => act_roles_of_ne _ ho' _
  have hself : (n.act o (role, actions)).settled o = role := by
    rw [Node.settled, act_roles_self, act_inbox_self, hin, settleRole_nil]
  have hother : ∀ c, c ≠ o → (n.act o (role, actions)).settled c =
      settleRole c (n.settled c) (siblEvents actions) := by
    intro c hc
    rw [Node.settled, hroles c hc, act_inbox_of_ne _ hc, settleRole_append, Node.settled]
  have hnow : n.settled o = n.roles o := by rw [Node.settled, hin, settleRole_nil]
  by_cases ho : o = .center
  · subst ho
    -- the home board installs no peer callback
    obtain ⟨state, hstate⟩ := h.home
    have hresult : role = n.roles .center ∧ actions = [] := by
      rw [hstate] at hd ⊢
      cases ev <;> cases hd <;> exact ⟨rfl, rfl⟩
    obtain ⟨rfl, rfl⟩ := hresult
    have hsettled : (n.act .center (n.roles .center, [])).settled = n.settled := by
      funext c
      by_cases hc : c = .center
      · subst hc
        rw [hself, hnow]
      · rw [hother c hc]
        rfl
    refine ⟨⟨state, by rw [act_roles_self, hstate]⟩, fun o' ho' => ?_, ?_⟩
    · rw [hroles o' ho']
      exact h.forwarder o' ho'
    · rw [hsettled]
      exact h.settled
  · obtain ⟨self, hstate⟩ := h.forwarder o ho
    rw [hstate] at hd hnow
    have safe : ∀ c old, c ≠ o → n.settled c = .forwarder old → old.isLocalRoot = true →
        Forwarder.Peer.overrides self old ev = false := by
      intro c old hc hold hroot
      have hall := List.all_eq_true.mp keeps c (Orientation.mem_all c)
      rw [hstate, hold] at hall
      simpa [hc, hroot] using hall
    have hsettled : Settled (n.act o (role, actions)).settled
        (gatewayAfter n.table.defaultGateway actions) := h.settled.peer ho hnow hd safe hself hother
    refine ⟨?_, fun o' ho' => ?_, ?_⟩
    · rw [hroles _ (Ne.symm ho)]
      exact h.home
    · by_cases hoo : o' = o
      · subst hoo
        obtain ⟨state', hstate'⟩ := hsettled.forwarder o' ho
        rw [hself] at hstate'
        exact ⟨state', by rw [act_roles_self, hstate']⟩
      · rw [hroles o' hoo]
        exact h.forwarder o' ho'
    · rw [act_table, tableAfter_defaultGateway]
      exact hsettled

/-- What an event that overrides the local root `other` of the board `c` leaves behind: `c` hears
nothing that stops it, and this board has made itself root or gateway. -/
structure Overriding (o c : Orientation) (other : RtForwarderState)
    (result : RtRole × List RtAction) : Prop where
  stays : ((siblEvents result.2).foldl (hear c) other).isLocalRoot = true
  taken : result.1.isLocalRoot = true ∨ ∀ gateway, gatewayAfter gateway result.2 = o.output

section Overriding

variable {self other : RtForwarderState} {c : Orientation}

theorem Overriding.handshake {event : RtPeerHandshake} (hroot : other.isLocalRoot = true)
    (hover : Forwarder.Peer.overrides self other (.handshake event) = true) :
    Overriding o c other (RtRole.ofForwarder (Peer.onHandshake o self event)) := by
  simp only [Forwarder.Peer.overrides, decide_eq_true_eq] at hover
  simp only [RtRole.ofForwarder, Peer.onHandshake, if_neg hover.1]
  constructor
  · exact hroot
  · right
    intro gateway
    simp [RtAction.gateway, hover.2]

theorem Overriding.updateDtr {event : RtPeerUpdateDtr} (hroot : other.isLocalRoot = true)
    (hover : Forwarder.Peer.overrides self other (.updateDtr event) = true) :
    Overriding o c other (RtRole.ofForwarder (Peer.onUpdateDtr o self event)) := by
  simp only [Forwarder.Peer.overrides, decide_eq_true_eq] at hover
  obtain ⟨hzero, hbetter, hrefuse⟩ := hover
  simp only [RtRole.ofForwarder, Peer.onUpdateDtr, if_neg hzero, if_pos hbetter]
  constructor
  · show (hear c other (.updateDtr ⟨event.dtr + 1⟩)).isLocalRoot = true
    rw [hear_updateDtr, if_pos hrefuse]
    exact hroot
  · exact .inl rfl

/-- Whatever a gateway request does besides, it writes its routes. -/
theorem newGatewayRequest_effects (o : Orientation) (self : RtForwarderState)
    (event : RtPeerNewGatewayRequest) :
    (∀ gateway, gatewayAfter gateway (Peer.onNewGatewayRequest o self event).2 =
        gatewayAfter gateway (Peer.requestRoutes o event.hagNetworks event.hagNetworks.toList)) ∧
      (siblEvents (Peer.onNewGatewayRequest o self event).2 = [] ∨ ∃ request,
        siblEvents (Peer.onNewGatewayRequest o self event).2 =
          [.sendNewGatewayRequest request]) := by
  have hevents := Settled.siblEvents_requestRoutes o event.hagNetworks
  have hsent : ∀ request, siblEvents
      (Peer.requestRoutes o event.hagNetworks event.hagNetworks.toList ++
        [.rsBroadcast (.sendNewGatewayRequest request)]) = [.sendNewGatewayRequest request] := by
    intro request
    rw [siblEvents_append, hevents]
    rfl
  unfold Peer.onNewGatewayRequest
  split
  · exact ⟨fun gateway => Settled.requestRoutes_broadcast gateway o _ _, .inr ⟨_, hsent _⟩⟩
  · split
    · exact ⟨fun gateway => rfl, .inl hevents⟩
    · exact ⟨fun gateway => Settled.requestRoutes_broadcast gateway o _ _, .inr ⟨_, hsent _⟩⟩

theorem Overriding.newGatewayRequest {event : RtPeerNewGatewayRequest}
    (hroot : other.isLocalRoot = true)
    (hover : Forwarder.Peer.overrides self other (.newGatewayRequest event) = true) :
    Overriding o c other (RtRole.ofForwarder (Peer.onNewGatewayRequest o self event)) := by
  simp only [Forwarder.Peer.overrides, decide_eq_true_eq] at hover
  obtain ⟨hroutes, hevents⟩ := newGatewayRequest_effects o self event
  constructor
  · show ((siblEvents (Peer.onNewGatewayRequest o self event).2).foldl (hear c)
      other).isLocalRoot = true
    rcases hevents with hevents | ⟨request, hevents⟩
    · rw [hevents]
      exact hroot
    · rw [hevents, List.foldl_cons, List.foldl_nil]
      rcases hear_sendNewGatewayRequest c other request with heq | heq
      · rw [heq]
        exact hroot
      · rw [heq]
        exact hroot
  · right
    intro gateway
    show gatewayAfter gateway (Peer.onNewGatewayRequest o self event).2 = o.output
    rw [hroutes, Settled.requestRoutes_gateway, if_pos hover]

theorem Overriding.newGatewayResponse {event : RtPeerNewGatewayResponse}
    (hroot : other.isLocalRoot = true)
    (hover : Forwarder.Peer.overrides self other (.newGatewayResponse event) = true) :
    Overriding o c other (RtRole.ofForwarder (Peer.onNewGatewayResponse o self event)) := by
  simp only [Forwarder.Peer.overrides, decide_eq_true_eq] at hover
  obtain ⟨hworse, hone⟩ := hover
  simp only [RtRole.ofForwarder, Peer.onNewGatewayResponse, if_neg hworse]
  constructor
  · show (hear c other (.newGatewayWinner
      ⟨event.externalNetwork, event.dtr + 1⟩)).isLocalRoot = true
    rw [hear_newGatewayWinner, if_pos hone]
    exact hroot
  · exact .inl rfl

theorem Overriding.dispatch {ev : RtPeerEvent} {result : RtRole × List RtAction}
    (hroot : other.isLocalRoot = true) (hover : Forwarder.Peer.overrides self other ev = true)
    (hd : dispatchPeer o (.forwarder self) ev = some result) : Overriding o c other result := by
  cases ev with
  | handshake event =>
      cases hd
      exact .handshake hroot hover
  | updateDtr event =>
      cases hd
      exact .updateDtr hroot hover
  | newGatewayRequest event =>
      cases hd
      exact .newGatewayRequest hroot hover
  | newGatewayResponse event =>
      cases hd
      exact .newGatewayResponse hroot hover
  | connected connection => cases hover
  | lost connection => cases hover
  | unknown id => cases hover

end Overriding

/-- The condition is exact: a peer step that does override a local root leaves two of them, or
a default gateway that does not name the one there is. -/
theorem overridden {ev : RtPeerEvent} (hs : n.step (.peer o ev) = some u)
    (hno : n.keepsGateway (.peer o ev) = false) :
    ¬ OneGateway u.settled u.table.defaultGateway := by
  obtain ⟨hin, role, actions, hd, rfl⟩ := step_peer hs
  obtain ⟨c, -, hc⟩ := List.all_eq_false.mp hno
  obtain ⟨self, hself⟩ : ∃ self, n.roles o = .forwarder self := by
    cases hrole : n.roles o with
    | forwarder self => exact ⟨self, rfl⟩
    | home state => simp [hrole] at hc
    | root state => simp [hrole] at hc
  obtain ⟨other, hother⟩ : ∃ other, n.settled c = .forwarder other := by
    cases hrole : n.settled c with
    | forwarder other => exact ⟨other, rfl⟩
    | home state => simp [hself, hrole] at hc
    | root state => simp [hself, hrole] at hc
  simp only [hself, hother, Bool.or_eq_true, decide_eq_true_eq, Bool.not_eq_true', not_or,
    Bool.not_eq_false, Bool.and_eq_true] at hc
  obtain ⟨hne, hroot, hover⟩ := hc
  rw [hself] at hd
  have overriding : Overriding o c other (role, actions) := .dispatch hroot hover hd
  have hafter : (n.act o (role, actions)).settled c =
      settleRole c (.forwarder other) (siblEvents actions) := by
    rw [Node.settled, act_roles_of_ne _ hne, act_inbox_of_ne _ hne, settleRole_append, ← hother,
      Node.settled]
  have hnow : (n.act o (role, actions)).settled o = role := by
    rw [Node.settled, act_roles_self, act_inbox_self, hin, settleRole_nil]
  have hstays : ((n.act o (role, actions)).settled c).isLocalRoot = true := by
    rw [hafter, settleRole_forwarder]
    exact overriding.stays
  rw [act_table, tableAfter_defaultGateway]
  intro one
  -- two boards would be the gateway, or the gateway would be this board and not `c`
  rcases overriding.taken with hrole | hgateway
  · exact hne (one.unique c o hstays (by rw [hnow]; exact hrole))
  · have houtput := (one.gateway c hstays).symm.trans (hgateway n.table.defaultGateway)
    exact hne (Orientation.output_injective houtput)

theorem start_inv : (start homeRoles).Inv where
  home := ⟨createHomeCore, rfl⟩
  forwarder o ho := by
    cases o <;> first | exact ⟨createForwarderCore, rfl⟩ | exact absurd rfl ho
  settled :=
    { home := ⟨createHomeCore, rfl⟩
      forwarder := by
        intro o ho
        cases o <;> first | exact ⟨createForwarderCore, rfl⟩ | exact absurd rfl ho
      one := by
        have none : ∀ o, ((start homeRoles).settled o).isLocalRoot = false := by
          intro o
          cases o <;> rfl
        refine ⟨fun a b ha => ?_, fun a ha => ?_⟩ <;>
          · rw [none a] at ha
            cases ha
      early := by
        intro o state hstate _
        have hdtr : state.dtr = 0 := by cases o <;> cases hstate <;> rfl
        rw [hdtr]
        decide
      provisioned := by
        right
        intro o state hstate
        have hglobal : state.globalState = .withoutNetwork := by
          cases o <;> cases hstate <;> rfl
        rw [hglobal]
        decide }

end Node

theorem Node.Inv.step {n u : Node} (inv : n.Inv) {l : NodeLabel}
    (hs : nodeMachine.step n l = some u) (keeps : n.keepsGateway l = true) : u.Inv := by
  cases l with
  | sibl o => exact inv.sibl hs
  | peer o ev => exact inv.peer hs keeps

/-- Along runs in which no peer event overrides a local root, a node whose sibling broadcasts
have all been handled has at most one local root, and the default gateway names it; and the
first peer event that does override one ends this. -/
theorem node_oneGateway {n : Node}
    (run : nodeMachine.Executes (fun n l => n.keepsGateway l = true)
      (Node.start Node.homeRoles) n) :
    (n.Drained → OneGateway n.roles n.table.defaultGateway) ∧
      ∀ l u, nodeMachine.step n l = some u →
        (OneGateway u.settled u.table.defaultGateway ↔ n.keepsGateway l = true) := by
  have inv : n.Inv := run.invariant Node.start_inv fun _ _ _ inv keeps hs => inv.step hs keeps
  refine ⟨fun drained => ?_, fun l u hs => ⟨fun one => ?_, fun keeps => ?_⟩⟩
  · have hsettled : n.settled = n.roles := by
      funext o
      rw [Node.settled, drained o, settleRole_nil]
    rw [← hsettled]
    exact inv.settled.one
  · cases l with
    | sibl o => rfl
    | peer o ev =>
        by_contra hno
        exact Node.overridden hs (by simpa using hno) one
  · exact (inv.step hs keeps).settled.one

/-- North is provisioned at distance 3 and tells its siblings 4; east accepts distance 3, which
north does not take for an improvement. -/
def equalDistances : List NodeLabel :=
  [.sibl .north, .peer .north (.handshake ⟨Network.zero, ⟨0x0a200000, 0xffe00000⟩, 3⟩),
    .sibl .east, .sibl .east, .peer .east (.updateDtr ⟨2⟩), .sibl .north,
    .sibl .south, .sibl .south, .sibl .south, .sibl .west, .sibl .west, .sibl .west,
    .sibl .center, .sibl .center, .sibl .center]

theorem equalDistances_runs :
    (nodeMachine.run (Node.start Node.homeRoles) equalDistances).isSome = true := by decide

theorem node_twoGateways :
    ¬ ∀ n : Node, nodeMachine.Reaches (Node.start Node.homeRoles) n → n.Drained →
      OneGateway n.roles n.table.defaultGateway := by
  intro h
  have one := h _ (Machine.reaches_of_run (Option.some_get equalDistances_runs).symm) (by
    intro o
    cases o <;> rfl)
  have heq := one.unique .north .east rfl rfl
  cases heq

/-- The same node when east only accepts distance 2: north is demoted. -/
def betterDistance : List NodeLabel :=
  [.sibl .north, .peer .north (.handshake ⟨Network.zero, ⟨0x0a200000, 0xffe00000⟩, 3⟩),
    .sibl .east, .sibl .east, .peer .east (.updateDtr ⟨1⟩), .sibl .north,
    .sibl .south, .sibl .south, .sibl .south, .sibl .west, .sibl .west, .sibl .west,
    .sibl .center, .sibl .center, .sibl .center]

theorem betterDistance_runs :
    (nodeMachine.runWith Node.keepsGateway (Node.start Node.homeRoles)
      betterDistance).isSome = true := by decide

theorem node_oneGateway_east :
    let n := (nodeMachine.runWith Node.keepsGateway (Node.start Node.homeRoles)
      betterDistance).get betterDistance_runs
    OneGateway n.roles n.table.defaultGateway :=
  (node_oneGateway (Machine.executes_of_runWith
    (Option.some_get betterDistance_runs).symm)).1 (by
      intro o
      cases o <;> rfl)

end I4A
