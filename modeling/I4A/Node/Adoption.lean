import I4A.Node.Provision

/-! # Adopting a network

Which events give a board a network, and how a forwarder that has not been given
one can leave `GLOBAL_STATE_WITHOUT_NETWORK` all the same.
-/

namespace I4A

open Forwarder

/-- The two switches of `on_critical_section` as one. -/
def dispatch (self : Orientation) (role : RtRole) : RtEvent → Option (RtRole × List RtAction)
  | .sibl event => dispatchSibl self role event
  | .peer event => dispatchPeer self role event

/-- The network that a board is given by the event: by the provisioning branch of
`on_handshake` or by one of the two `on_provision`. -/
def RtRole.adopts : RtRole → RtEvent → Option Network
  | .forwarder state, .peer (.handshake event) =>
      if state.globalState = .withoutNetwork then some event.providedNetwork else none
  | .forwarder state, .sibl (.provision event) =>
      if state.globalState = .withNetwork then none else some event.network
  | .home state, .sibl (.provision event) =>
      if state.isProvisioned then none else some event.network
  | _, _ => none

namespace Forwarder

/-- A forwarder's state after one more event of either kind. -/
def handle (self : Orientation) (state : RtForwarderState) : RtEvent → RtForwarderState
  | .sibl event => hear self state event
  | .peer (.handshake event) => (Peer.onHandshake self state event).1
  | .peer (.updateDtr event) => (Peer.onUpdateDtr self state event).1
  | .peer (.newGatewayRequest event) => (Peer.onNewGatewayRequest self state event).1
  | .peer (.newGatewayResponse event) => (Peer.onNewGatewayResponse self state event).1
  | .peer (.connected _) => (Peer.onPeerConnected state).1
  | .peer (.lost _) => (Peer.onPeerLost self state).1
  | .peer (.unknown _) => state

/-- The handler takes a board without network to another `global_state` and gives it no
network. -/
def premature (state : RtForwarderState) (event : RtEvent) : Bool :=
  decide (state.globalState = .withoutNetwork) &&
    match event with
    | .peer (.newGatewayRequest _) => decide (state.dtr ≠ 1)
    | .peer (.newGatewayResponse event) => decide (state.dtr = 0 ∨ event.dtr < state.dtr)
    | .peer (.lost _) => state.isLocalRoot
    | .sibl (.sendNewGatewayRequest event) =>
        decide (state.dtr ≠ 1) && decide (state.localState = .connected) &&
          (findFreeSpot event.hagNetworks).isSome
    | .sibl (.newGatewayWinner _) => decide (state.dtr ≠ 1)
    | _ => false

variable {self : Orientation} {state : RtForwarderState} {event : RtEvent}

theorem dispatch_forwarder {result : RtRole × List RtAction}
    (hd : dispatch self (.forwarder state) event = some result) :
    result.1 = .forwarder (handle self state event) := by
  cases event with
  | sibl event =>
      have hd' : dispatchSibl self (.forwarder state) event = some (result.1, result.2) := hd
      rw [hear_kind hd', hearRole_forwarder]
      rfl
  | peer event =>
      cases event with
      | unknown id => cases hd
      | _ =>
          cases hd
          rfl

/-- A board that is given a network holds it, and its own part of it. -/
theorem handle_adopts (self : Orientation) {network : Network}
    (h : (RtRole.forwarder state).adopts event = some network) :
    (handle self state event).nodeNetwork = network ∧
      (handle self state event).deviceNetwork = getNodeSubnet network self ∧
      (handle self state event).globalState = .withNetwork := by
  cases event with
  | sibl event =>
      cases event with
      | provision event =>
          by_cases hwith : state.globalState = .withNetwork
          · simp [RtRole.adopts, hwith] at h
          · simp only [RtRole.adopts, if_neg hwith, Option.some.injEq] at h
            subst h
            simp [handle, hear, Sibling.onProvision, hwith]
      | _ => cases h
  | peer event =>
      cases event with
      | handshake event =>
          by_cases hwithout : state.globalState = .withoutNetwork
          · simp only [RtRole.adopts, if_pos hwithout, Option.some.injEq] at h
            subst h
            simp [handle, Peer.onHandshake, hwithout]
          · simp [RtRole.adopts, hwithout] at h
      | _ => cases h

/-- A board that is given none keeps what it has; it leaves `GLOBAL_STATE_WITHOUT_NETWORK`
exactly in the premature cases. -/
theorem handle_keeps (self : Orientation) (h : (RtRole.forwarder state).adopts event = none) :
    (handle self state event).nodeNetwork = state.nodeNetwork ∧
      (handle self state event).deviceNetwork = state.deviceNetwork ∧
      ((handle self state event).globalState = .withoutNetwork ↔
        state.globalState = .withoutNetwork ∧ premature state event = false) := by
  cases event with
  | sibl event =>
      cases event with
      | onStart => simp [handle, hear, premature]
      | unknown id => simp [handle, hear, premature]
      | updateDtr event =>
          simp only [handle, premature, Bool.and_false, and_true]
          rw [hear_updateDtr]
          split <;> simp
      | provision event =>
          have hwith : state.globalState = .withNetwork := by
            by_contra hwith
            simp [RtRole.adopts, hwith] at h
          simp only [handle, hear_provision_withNetwork hwith]
          simp [hwith]
      | sendNewGatewayRequest event =>
          simp only [handle, hear, Sibling.onSendNewGatewayRequest, premature]
          by_cases hdtr : state.dtr = 1#32
          · simp [hdtr]
          · by_cases hreq : state.globalState = .onGwRequest
            · simp [hdtr, hreq]
            · cases state.localState with
              | notConnected => simp [hdtr, hreq]
              | connected =>
                  cases findFreeSpot event.hagNetworks <;> simp [hdtr, hreq]
      | newGatewayWinner event =>
          simp only [handle, premature]
          rw [hear_newGatewayWinner]
          by_cases hdtr : state.dtr = 1#32 <;> simp [hdtr]
  | peer event =>
      cases event with
      | handshake event =>
          have hwith : state.globalState ≠ .withoutNetwork := by
            intro hwithout
            simp [RtRole.adopts, hwithout] at h
          simp [handle, Peer.onHandshake, hwith]
      | updateDtr event =>
          simp only [handle, Peer.onUpdateDtr, premature]
          split
          · simp
          · split <;> simp
      | newGatewayRequest event =>
          simp only [handle, Peer.onNewGatewayRequest, premature]
          by_cases hdtr : state.dtr = 1#32
          · simp [hdtr]
          · by_cases hreq : state.globalState = .onGwRequest <;> simp [hdtr, hreq]
      | newGatewayResponse event =>
          simp only [handle, Peer.onNewGatewayResponse, premature]
          by_cases hworse : state.dtr ≠ 0 ∧ state.dtr ≤ event.dtr
          · have hbetter : ¬ (state.dtr = 0 ∨ event.dtr < state.dtr) := by
              simp only [not_or, BitVec.not_lt]
              exact hworse
            rw [if_pos hworse, decide_eq_false hbetter]
            simp
          · have hbetter : state.dtr = 0 ∨ event.dtr < state.dtr := by
              by_cases hzero : state.dtr = 0
              · exact .inl hzero
              · exact .inr (BitVec.not_le.mp fun hle => hworse ⟨hzero, hle⟩)
            rw [if_neg hworse, decide_eq_true hbetter]
            simp
      | connected connection => simp [handle, Peer.onPeerConnected, premature]
      | lost connection =>
          simp only [handle, Peer.onPeerLost, premature]
          cases state.isLocalRoot <;> simp
      | unknown id => simp [handle, premature]

end Forwarder

/-! ## Runs of one forwarder -/

/-- A forwarder with the networks it has been given, the latest first. -/
structure ForwarderHistory where
  state : RtForwarderState
  given : List Network

namespace ForwarderHistory

/-- After `create_forwarder_core`. -/
def create : ForwarderHistory := ⟨createForwarderCore, []⟩

def step (self : Orientation) (t : ForwarderHistory) (event : RtEvent) : ForwarderHistory where
  state := handle self t.state event
  given := ((RtRole.forwarder t.state).adopts event).toList ++ t.given

/-- The board will take the next handshake, and the next provision broadcast, as its own. -/
def Provisionable (self : Orientation) (state : RtForwarderState) : Prop :=
  ∀ network : Network,
    (∀ external dtr, (Peer.onHandshake self state ⟨external, network, dtr⟩).1.nodeNetwork =
      network) ∧
    ∀ provider dtr, (Sibling.onProvision self state ⟨provider, dtr, network⟩).1.nodeNetwork =
      network

/-- What `global_state` says is so. -/
structure Truthful (o : Orientation) (t : ForwarderHistory) : Prop where
  network : t.state.globalState = .withNetwork ∨ t.state.globalState = .onGwRequest →
    t.given ≠ [] ∧ t.state.deviceNetwork = getNodeSubnet t.state.nodeNetwork o
  waiting : t.given = [] →
    t.state.globalState = .withoutNetwork ∧ Provisionable o t.state

/-- The networks of the board are the last ones it was given. -/
def Given (self : Orientation) (t : ForwarderHistory) : Prop :=
  ∀ network ∈ t.given.head?, t.state.nodeNetwork = network ∧
    t.state.deviceNetwork = getNodeSubnet network self ∧ t.state.globalState ≠ .withoutNetwork

end ForwarderHistory

open ForwarderHistory

/-- Any handler may run at any time. -/
def forwarderMachine (self : Orientation) : Machine ForwarderHistory RtEvent :=
  ⟨fun t event => some (t.step self event)⟩

/-- The handler does not run too early. -/
def timely (t : ForwarderHistory) (event : RtEvent) : Prop := premature t.state event = false

theorem provisionable_of_withoutNetwork {self : Orientation} {state : RtForwarderState}
    (h : state.globalState = .withoutNetwork) : Provisionable self state := by
  intro network
  refine ⟨fun external dtr => ?_, fun provider dtr => ?_⟩
  · simp [Peer.onHandshake, h]
  · simp [Sibling.onProvision, h]

theorem ForwarderHistory.Given.step {self : Orientation} {t : ForwarderHistory}
    (inv : t.Given self) (event : RtEvent) : (t.step self event).Given self := by
  intro network hnetwork
  cases hadopts : (RtRole.forwarder t.state).adopts event with
  | some given =>
      simp only [ForwarderHistory.step, hadopts, Option.toList_some, List.cons_append,
        List.head?_cons, Option.mem_def, Option.some.injEq] at hnetwork
      subst hnetwork
      obtain ⟨hnode, hdevice, hglobal⟩ := handle_adopts self hadopts
      exact ⟨hnode, hdevice, fun h => nomatch hglobal.symm.trans h⟩
  | none =>
      simp only [ForwarderHistory.step, hadopts, Option.toList_none, List.nil_append] at hnetwork
      obtain ⟨hnode, hdevice, hglobal⟩ := inv network hnetwork
      obtain ⟨hnode', hdevice', hglobal'⟩ := handle_keeps self hadopts
      exact ⟨hnode'.trans hnode, hdevice'.trans hdevice,
        fun h => hglobal (hglobal'.mp h).1⟩

theorem ForwarderHistory.Given.truthful {self : Orientation} {t : ForwarderHistory}
    (inv : t.Given self) (given : t.given ≠ []) : t.Truthful self where
  network _ := by
    obtain ⟨network, rest, hgiven⟩ := List.exists_cons_of_ne_nil given
    obtain ⟨hnode, hdevice, -⟩ := inv network (by simp [hgiven])
    exact ⟨given, by rw [hdevice, hnode]⟩
  waiting h := absurd h given

theorem truthful_of_withoutNetwork {self : Orientation} {t : ForwarderHistory}
    (h : t.state.globalState = .withoutNetwork) : t.Truthful self where
  network hstate := by
    rw [h] at hstate
    rcases hstate with hstate | hstate <;> cases hstate
  waiting _ := ⟨h, provisionable_of_withoutNetwork h⟩

/-- A timely handler keeps a truthful board truthful, a premature one does not. -/
theorem truthful_step_iff {self : Orientation} {t : ForwarderHistory} (inv : t.Given self)
    (truthful : t.Truthful self) (event : RtEvent) :
    (t.step self event).Truthful self ↔ timely t event := by
  cases hadopts : (RtRole.forwarder t.state).adopts event with
  | some network =>
      have hgiven : (t.step self event).given ≠ [] := by simp [ForwarderHistory.step, hadopts]
      have htimely : timely t event := by
        cases event with
        | sibl event =>
            cases event with
            | provision event => simp [timely, premature]
            | _ => cases hadopts
        | peer event =>
            cases event with
            | handshake event => simp [timely, premature]
            | _ => cases hadopts
      exact iff_of_true ((inv.step event).truthful hgiven) htimely
  | none =>
      have hsame : (t.step self event).given = t.given := by
        simp [ForwarderHistory.step, hadopts]
      obtain ⟨-, -, hglobal⟩ := handle_keeps self hadopts
      by_cases hgiven : t.given = []
      · have hwithout := (truthful.waiting hgiven).1
        constructor
        · intro after
          exact (hglobal.mp (after.waiting (hsame.trans hgiven)).1).2
        · intro htimely
          exact truthful_of_withoutNetwork (hglobal.mpr ⟨hwithout, htimely⟩)
      · have hwith : t.state.globalState ≠ .withoutNetwork := by
          obtain ⟨network, rest, hcons⟩ := List.exists_cons_of_ne_nil hgiven
          exact (inv network (by simp [hcons])).2.2
        refine iff_of_true ((inv.step event).truthful (hsame ▸ hgiven)) ?_
        simp [timely, premature, hwith]

theorem create_given (self : Orientation) : create.Given self := by simp [Given, create]

theorem create_truthful (self : Orientation) : create.Truthful self :=
  truthful_of_withoutNetwork rfl

/-- A forwarder is truthful in every state of a run without premature handlers, and no longer
after the first premature one. -/
theorem forwarder_provisionedState (self : Orientation) :
    (∀ t, (forwarderMachine self).Executes timely create t → t.Truthful self) ∧
      ∀ s event t, (forwarderMachine self).Executes timely create s → ¬ timely s event →
        (forwarderMachine self).step s event = some t → ¬ t.Truthful self := by
  have both : ∀ t, (forwarderMachine self).Executes timely create t →
      t.Given self ∧ t.Truthful self := by
    intro t run
    induction run with
    | refl => exact ⟨create_given self, create_truthful self⟩
    | @tail s u event _ htimely hs ih =>
        cases hs
        exact ⟨ih.1.step event, (truthful_step_iff ih.1 ih.2 event).mpr htimely⟩
  refine ⟨fun t run => (both t run).2, ?_⟩
  intro s event t run hpremature hs
  cases hs
  obtain ⟨inv, truthful⟩ := both s run
  exact fun after => hpremature ((truthful_step_iff inv truthful event).mp after)

/-- An update, a handshake, the loss of the connection and a new gateway. -/
def provisionedRun : List RtEvent :=
  [.peer (.updateDtr ⟨3⟩), .peer (.handshake ⟨Network.zero, ⟨0x0a200000#32, 0xffe00000#32⟩, 1⟩),
    .peer (.lost Network.zero), .sibl (.newGatewayWinner ⟨Network.zero, 4⟩)]

/-- The schedule runs, and every handler of it is timely. -/
def runTimely (self : Orientation) (events : List RtEvent) : Option ForwarderHistory :=
  (forwarderMachine self).runWith (fun t event => !premature t.state event) create events

theorem forwarder_provisionedState_lost :
    ∃ t, runTimely .south provisionedRun = some t ∧ t.Truthful .south := by
  obtain ⟨t, ht⟩ : ∃ t, runTimely .south provisionedRun = some t :=
    Option.isSome_iff_exists.mp (by decide)
  have run : (forwarderMachine .south).Executes timely create t :=
    (Machine.executes_of_runWith ht).mono (by simp [timely])
  exact ⟨t, ht, (forwarder_provisionedState .south).1 t run⟩

/-- A gateway request that comes before the handshake takes the board out of
`GLOBAL_STATE_WITHOUT_NETWORK`, and the handshake no longer provisions it. -/
theorem forwarder_unprovisionable :
    ¬ ∀ (self : Orientation) (t : ForwarderHistory),
      (forwarderMachine self).Reaches create t → t.Truthful self := by
  intro h
  have early := h .north _ (.single (l := .peer (.newGatewayRequest ⟨HagNetworks.empty⟩))
    trivial rfl)
  have hwithout := (early.waiting rfl).1
  revert hwithout
  decide

end I4A
