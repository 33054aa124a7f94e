import I4A.Core.Countdown
import I4A.Routing.Dispatch

/-! # The root's answer to gateway requests

`on_new_gateway_request` and `on_tick` of `root.c` over whole histories. The stored timeout is
what a countdown of `GATEWAY_REQUEST_TIMEOUT` has left, so the tick at which the root answers
is a matter of the requests and the ticks alone.
-/

namespace I4A

open RtAction

/-- What the root board is called with: sibling and peer events from the critical section, and
`rt_on_tick`. -/
inductive RootEvent where
  | sibl (event : RtSiblEvent)
  | peer (event : RtPeerEvent)
  | tick (dtMs : BitVec 32)

namespace RootEvent

/-- The event of `on_new_gateway_request`. -/
def isRequest : RootEvent → Bool
  | .sibl (.sendNewGatewayRequest _) => true
  | _ => false

/-- The milliseconds a call accounts for. -/
def duration : RootEvent → Nat
  | .tick dtMs => dtMs.toNat
  | _ => 0

/-- The case of the switch an event takes; the `default` case does nothing. -/
def handle (board : Orientation) (role : RtRole) : RootEvent → RtRole × List RtAction
  | .sibl event => (dispatchSibl board role event).getD (role, [])
  | .peer event => (dispatchPeer board role event).getD (role, [])
  | .tick dtMs => rtOnTick role dtMs

end RootEvent

/-- A call that broadcasts `SIBL_NEW_GATEWAY_WINNER`. -/
def RtAction.isWinner : RtAction → Bool
  | .rsBroadcast (.newGatewayWinner _) => true
  | _ => false

/-- An event with the calls its handler made. -/
structure RootStep where
  event : RootEvent
  calls : List RtAction

def RootStep.answers (step : RootStep) : Bool := step.calls.any isWinner

/-- The board's role after a history. -/
def rootRun (board : Orientation) (role : RtRole) (history : List RootEvent) : RtRole :=
  history.foldl (fun role event => (event.handle board role).1) role

/-- The history with what every event made the board do. -/
def rootTrace (board : Orientation) : RtRole → List RootEvent → List RootStep
  | _, [] => []
  | role, event :: rest =>
      ⟨event, (event.handle board role).2⟩ :: rootTrace board (event.handle board role).1 rest

/-- A request arrived and has not been answered since. -/
def RequestPending (trace : List RootStep) : Prop :=
  ∃ first request rest, trace = first ++ request :: rest ∧ request.event.isRequest = true ∧
    ∀ step ∈ rest, step.answers = false

/-- The milliseconds ticked since the most recent request. -/
def sinceRequest (history : List RootEvent) : Nat :=
  history.foldl (fun ms event => if event.isRequest then 0 else ms + event.duration) 0

/-- The countdown of `GATEWAY_REQUEST_TIMEOUT`. -/
def rootCountdown : Countdown RootEvent where
  limit := gatewayRequestTimeout.toNat
  limit_pos := by decide
  arms := RootEvent.isRequest
  duration := RootEvent.duration

@[simp] theorem rootCountdown_limit : rootCountdown.limit = 10000 := rfl

@[simp] theorem rootCountdown_arms : rootCountdown.arms = RootEvent.isRequest := rfl

@[simp] theorem rootCountdown_duration : rootCountdown.duration = RootEvent.duration := rfl

/-! ## The stored timeout is what the countdown has left -/

/-- The root's state at a moment of the countdown. -/
def rootAt (network : Network) : Option Nat → RtRootState
  | none => ⟨network, false, 0⟩
  | some time => ⟨network, true, BitVec.ofNat 32 (rootCountdown.limit - time)⟩

theorem toNat_remaining (time : Nat) : (BitVec.ofNat 32 (10000 - time)).toNat = 10000 - time := by
  rw [BitVec.toNat_ofNat]
  exact Nat.mod_eq_of_lt (by omega)

/-- A tick on the root: the countdown's step, and the answer when it goes off. -/
theorem rtOnTick_rootAt (network : Network) {state : Option Nat}
    (inv : rootCountdown.Waiting state) (dtMs : BitVec 32) :
    rtOnTick (.root (rootAt network state)) dtMs =
      (.root (rootAt network (rootCountdown.next state (.tick dtMs))),
        if rootCountdown.fires state (.tick dtMs) then
          [rsBroadcast (.newGatewayWinner ⟨network, 1⟩)] else []) := by
  have harm : rootCountdown.arms (.tick dtMs) = false := rfl
  cases state with
  | none => rfl
  | some time =>
      have hlt : time < 10000 := inv time rfl
      have hleft := toNat_remaining time
      have hiff : BitVec.ofNat 32 (10000 - time) ≤ dtMs ↔ 10000 ≤ time + dtMs.toNat := by
        rw [BitVec.le_def, hleft]
        omega
      rw [rootCountdown.next_some harm]
      by_cases hlim : 10000 ≤ time + dtMs.toNat
      · simp [rtOnTick, RtRole.ofRoot, Root.onTick, rootAt, Countdown.fires, RootEvent.isRequest,
          RootEvent.duration, hiff, hlim]
      · -- the timeout stays above the tick, so the subtraction is that of naturals
        have hsub : BitVec.ofNat 32 (10000 - time) - dtMs =
            BitVec.ofNat 32 (10000 - (time + dtMs.toNat)) := by
          apply BitVec.eq_of_toNat_eq
          rw [BitVec.toNat_sub_of_le (by rw [BitVec.le_def, hleft]; omega), hleft,
            toNat_remaining]
          omega
        simp [rtOnTick, RtRole.ofRoot, Root.onTick, rootAt, Countdown.fires, RootEvent.isRequest,
          RootEvent.duration, hiff, hlim, hsub]

/-- Every event on the root follows the countdown, and answers exactly when it goes off. -/
theorem handle_rootAt (board : Orientation) (network : Network) {state : Option Nat}
    (inv : rootCountdown.Waiting state) (event : RootEvent) :
    (event.handle board (.root (rootAt network state))).1 =
        .root (rootAt network (rootCountdown.next state event)) ∧
      (RootStep.mk event (event.handle board (.root (rootAt network state))).2).answers =
        rootCountdown.fires state event := by
  -- an event that takes no time and arms nothing leaves the countdown as it is
  have keep : ∀ event : RootEvent, event.isRequest = false → event.duration = 0 →
      rootCountdown.next state event = state ∧ rootCountdown.fires state event = false := by
    intro event harm hdur
    cases state with
    | none => simp [Countdown.next, Countdown.fires, harm]
    | some time =>
        have hlt : ¬ 10000 ≤ time := Nat.not_le.mpr (inv time rfl)
        simp [Countdown.next, Countdown.fires, harm, hdur, hlt]
  cases event with
  | tick dtMs =>
      have htick := rtOnTick_rootAt network inv dtMs
      constructor
      · simp only [RootEvent.handle, htick]
      · simp only [RootEvent.handle, htick, RootStep.answers]
        cases rootCountdown.fires state (.tick dtMs) <;> rfl
  | peer event =>
      obtain ⟨hnext, hfires⟩ := keep (.peer event) rfl rfl
      rw [hnext, hfires]
      cases event <;> exact ⟨rfl, rfl⟩
  | sibl event =>
      cases event with
      | sendNewGatewayRequest payload =>
          cases state <;> exact ⟨rfl, rfl⟩
      | onStart =>
          obtain ⟨hnext, hfires⟩ := keep (.sibl .onStart) rfl rfl
          rw [hnext, hfires]
          exact ⟨rfl, rfl⟩
      | updateDtr payload =>
          obtain ⟨hnext, hfires⟩ := keep (.sibl (.updateDtr payload)) rfl rfl
          rw [hnext, hfires]
          exact ⟨rfl, rfl⟩
      | provision payload =>
          obtain ⟨hnext, hfires⟩ := keep (.sibl (.provision payload)) rfl rfl
          rw [hnext, hfires]
          exact ⟨rfl, rfl⟩
      | newGatewayWinner payload =>
          obtain ⟨hnext, hfires⟩ := keep (.sibl (.newGatewayWinner payload)) rfl rfl
          rw [hnext, hfires]
          exact ⟨rfl, rfl⟩
      | unknown eventId =>
          obtain ⟨hnext, hfires⟩ := keep (.sibl (.unknown eventId)) rfl rfl
          rw [hnext, hfires]
          exact ⟨rfl, rfl⟩

/-! ## Histories -/

section History

variable (board : Orientation) (network : Network)

theorem rootRun_rootAt {state : Option Nat} (inv : rootCountdown.Waiting state)
    (history : List RootEvent) :
    rootRun board (.root (rootAt network state)) history =
      .root (rootAt network (rootCountdown.after state history)) := by
  induction history generalizing state with
  | nil => rfl
  | cons event rest ih =>
      have hstep := (handle_rootAt board network inv event).1
      have hrest := ih (inv.next _ event)
      rw [← hstep] at hrest
      exact hrest

/-- The root answers as often as the countdown goes off. -/
theorem countP_answers {state : Option Nat} (inv : rootCountdown.Waiting state)
    (history : List RootEvent) :
    (rootTrace board (.root (rootAt network state)) history).countP RootStep.answers =
      rootCountdown.firings state history := by
  induction history generalizing state with
  | nil => rfl
  | cons event rest ih =>
      obtain ⟨hrun, hanswers⟩ := handle_rootAt board network inv event
      rw [rootTrace, List.countP_cons, hrun, ih (inv.next _ event), hanswers, Countdown.firings,
        Nat.add_comm]

theorem rootTrace_append (role : RtRole) (first second : List RootEvent) :
    rootTrace board role (first ++ second) =
      rootTrace board role first ++ rootTrace board (rootRun board role first) second := by
  induction first generalizing role with
  | nil => rfl
  | cons event rest ih =>
      rw [List.cons_append, rootTrace, rootTrace, List.cons_append, ih]
      rfl

theorem map_event_rootTrace (role : RtRole) (history : List RootEvent) :
    (rootTrace board role history).map RootStep.event = history := by
  induction history generalizing role with
  | nil => rfl
  | cons event rest ih => rw [rootTrace, List.map_cons, ih]

end History

/-- Since a last request, the time ticked is what the stretch behind it takes. -/
theorem sinceRequest_eq (first : List RootEvent) {request : RootEvent} {rest : List RootEvent}
    (harm : request.isRequest = true) (hrest : rootCountdown.Unarmed rest) :
    sinceRequest (first ++ request :: rest) = rootCountdown.passed rest := by
  have hstretch : ∀ (ms : Nat), rest.foldl
      (fun ms event => if event.isRequest then 0 else ms + event.duration) ms =
        ms + rootCountdown.passed rest := by
    induction rest with
    | nil => simp
    | cons event rest ih =>
        intro ms
        have hev : event.isRequest = false := hrest event List.mem_cons_self
        have htail : rootCountdown.Unarmed rest := fun e he => hrest e (List.mem_cons_of_mem _ he)
        rw [List.foldl_cons, hev, if_neg (by simp), ih htail, Countdown.passed_cons,
          Nat.add_assoc]
        rfl
  rw [sinceRequest, List.foldl_append, List.foldl_cons, harm, if_pos rfl, hstretch, Nat.zero_add]

theorem RequestPending.exists_last {board : Orientation} {role : RtRole}
    {history : List RootEvent} (pending : RequestPending (rootTrace board role history)) :
    ∃ first request rest, history = first ++ request :: rest ∧ request.isRequest = true ∧
      rootCountdown.Unarmed rest := by
  rcases rootCountdown.unarmed_or_last history with hun | hlast
  · obtain ⟨first, request, rest, heq, hreq, -⟩ := pending
    have hmem : request.event ∈ history := by
      rw [← map_event_rootTrace board role history, heq]
      simp
    rw [rootCountdown_arms.symm, hun _ hmem] at hreq
    cases hreq
  · exact hlast

theorem fires_some_tick {time : Nat} {dtMs : BitVec 32} :
    rootCountdown.fires (some time) (.tick dtMs) = true ↔
      gatewayRequestTimeout.toNat ≤ time + dtMs.toNat := by
  have harm : rootCountdown.arms (.tick dtMs) = false := rfl
  rw [Countdown.fires, harm, Bool.not_false, Bool.true_and]
  exact decide_eq_true_iff

/-- The answer at a tick, from the history: a pending request, and the time since the most
recent one reaches the timeout at this tick. -/
theorem fires_iff (board : Orientation) (network : Network) (history : List RootEvent)
    (dtMs : BitVec 32) :
    rootCountdown.fires (rootCountdown.after none history) (.tick dtMs) = true ↔
      RequestPending (rootTrace board (.root (rootAt network none)) history) ∧
        sinceRequest history < gatewayRequestTimeout.toNat ∧
        gatewayRequestTimeout.toNat ≤ sinceRequest history + dtMs.toNat := by
  have idle : rootCountdown.Waiting none := rootCountdown.waiting_none
  constructor
  · intro hfires
    cases hafter : rootCountdown.after none history with
    | none =>
        rw [hafter] at hfires
        cases hfires
    | some time =>
        obtain ⟨first, request, rest, rfl, harm, hrest, rfl, hlt⟩ :=
          rootCountdown.after_eq_some_iff.mp hafter
        rw [sinceRequest_eq first harm hrest]
        rw [hafter] at hfires
        refine ⟨⟨_, _, _, rootTrace_append board _ first (request :: rest), harm, ?_⟩, hlt, ?_⟩
        · -- the countdown armed by the request has not gone off since
          rw [rootRun_rootAt board network idle]
          obtain ⟨hrun, -⟩ := handle_rootAt board network (idle.after _ first) request
          have hcount := countP_answers board network
            ((idle.after _ first).next _ request) rest
          rw [← hrun, rootCountdown.next_of_arms _ harm,
            rootCountdown.firings_some hrest rootCountdown.limit_pos, Nat.zero_add,
            if_neg (by omega), List.countP_eq_zero] at hcount
          intro step hstep
          simpa using hcount step hstep
        · exact fires_some_tick.mp hfires
  · rintro ⟨hpending, hlt, hle⟩
    obtain ⟨first, request, rest, rfl, harm, hrest⟩ := hpending.exists_last
    rw [sinceRequest_eq first harm hrest] at hlt hle
    rw [rootCountdown.after_eq_some_iff.mpr ⟨first, request, rest, rfl, harm, hrest, rfl, hlt⟩]
    exact fires_some_tick.mpr hle

/-- The root, created with its network, over every history: at a tick it broadcasts
`SIBL_NEW_GATEWAY_WINNER` if and only if a request is pending and the time since the most recent
one first reaches the timeout there; nothing else makes it broadcast one; a request that is left
alone is answered once as soon as the ticks add up to the timeout; and a tick that does not
answer takes its length off the stored timeout without underflow. -/
theorem root_answers_each_burst (board : Orientation) (rootNetwork rootMask : BitVec 32) :
    let root := RtRole.root (createRootCore rootNetwork rootMask)
    (∀ history dtMs,
      let tick := rtOnTick (rootRun board root history) dtMs
      (tick.2 = [rsBroadcast (.newGatewayWinner ⟨⟨rootNetwork, rootMask⟩, 1⟩)] ↔
          RequestPending (rootTrace board root history) ∧
            sinceRequest history < gatewayRequestTimeout.toNat ∧
            gatewayRequestTimeout.toNat ≤ sinceRequest history + dtMs.toNat) ∧
        (tick.2 = [rsBroadcast (.newGatewayWinner ⟨⟨rootNetwork, rootMask⟩, 1⟩)] ∨
          tick.2 = [])) ∧
      (∀ history event, (∀ dtMs, event ≠ .tick dtMs) →
        (RootStep.mk event (event.handle board (rootRun board root history)).2).answers = false) ∧
      (∀ history request burst, request.isRequest = true →
        (∀ event ∈ burst, event.isRequest = false) →
        (rootTrace board (rootRun board root (history ++ [request])) burst).countP
            RootStep.answers =
          if gatewayRequestTimeout.toNat ≤ (burst.map RootEvent.duration).sum then 1 else 0) ∧
      ∀ history state, rootRun board root history = .root state →
        state.gatewayRequested = true →
        state.gatewayRequestedTimeout.toNat + sinceRequest history =
            gatewayRequestTimeout.toNat ∧
          ∀ dtMs, (rtOnTick (.root state) dtMs).2 = [] →
            dtMs.toNat < state.gatewayRequestedTimeout.toNat ∧
            (Root.onTick state dtMs).1.gatewayRequestedTimeout.toNat =
              state.gatewayRequestedTimeout.toNat - dtMs.toNat := by
  have idle : rootCountdown.Waiting none := rootCountdown.waiting_none
  have hrun : ∀ history, rootRun board (.root (createRootCore rootNetwork rootMask)) history =
      .root (rootAt ⟨rootNetwork, rootMask⟩ (rootCountdown.after none history)) :=
    rootRun_rootAt board ⟨rootNetwork, rootMask⟩ idle
  refine ⟨?_, ?_, ?_, ?_⟩
  · intro history dtMs
    have htick := congrArg Prod.snd
      (rtOnTick_rootAt ⟨rootNetwork, rootMask⟩ (idle.after _ history) dtMs)
    rw [← hrun] at htick
    have hiff := fires_iff board ⟨rootNetwork, rootMask⟩ history dtMs
    dsimp only at htick ⊢
    cases hfires : rootCountdown.fires (rootCountdown.after none history) (.tick dtMs) with
    | true =>
        rw [hfires, if_pos rfl] at htick
        exact ⟨iff_of_true htick (hiff.mp hfires), .inl htick⟩
    | false =>
        rw [hfires, if_neg (by simp)] at htick
        refine ⟨iff_of_false ?_ fun h => ?_, .inr htick⟩
        · rw [htick]
          simp
        · rw [hiff.mpr h] at hfires
          cases hfires
  · intro history event htick
    rw [hrun, (handle_rootAt board _ (idle.after _ history) event).2]
    cases hafter : rootCountdown.after none history with
    | none => rfl
    | some time =>
        have hlt : time < 10000 := (idle.after _ history) time hafter
        cases event with
        | tick dtMs => exact (htick dtMs rfl).elim
        | sibl event => simp [Countdown.fires, RootEvent.duration, hlt]
        | peer event => simp [Countdown.fires, RootEvent.duration, hlt]
  · intro history request burst harm hburst
    have hun : rootCountdown.Unarmed burst := hburst
    have harmed : rootCountdown.after none (history ++ [request]) = some 0 := by
      rw [Countdown.after_append]
      exact rootCountdown.next_of_arms _ harm
    rw [hrun, countP_answers board _ (idle.after _ _), harmed,
      rootCountdown.firings_some hun rootCountdown.limit_pos, Nat.zero_add]
    rfl
  · intro history state hstate hreq
    rw [hrun] at hstate
    obtain rfl := RtRole.root.inj hstate
    cases hafter : rootCountdown.after none history with
    | none =>
        rw [hafter] at hreq
        cases hreq
    | some time =>
        obtain ⟨first, request, rest, rfl, harm, hrest, rfl, hlt⟩ :=
          rootCountdown.after_eq_some_iff.mp hafter
        have hleft := toNat_remaining (rootCountdown.passed rest)
        have htimeout : (rootAt ⟨rootNetwork, rootMask⟩
            (some (rootCountdown.passed rest))).gatewayRequestedTimeout.toNat =
              10000 - rootCountdown.passed rest := hleft
        constructor
        · rw [htimeout, sinceRequest_eq first harm hrest]
          exact Nat.sub_add_cancel (Nat.le_of_lt hlt)
        · intro dtMs hnone
          by_cases hle : (rootAt ⟨rootNetwork, rootMask⟩
              (some (rootCountdown.passed rest))).gatewayRequestedTimeout ≤ dtMs
          · rw [rtOnTick, Root.onTick, if_neg (by simp [rootAt]), if_pos hle] at hnone
            cases hnone
          · have hsub := BitVec.toNat_sub_of_le (BitVec.le_of_lt (BitVec.not_le.mp hle))
            rw [Root.onTick, if_neg (by simp [rootAt]), if_neg hle]
            exact ⟨BitVec.lt_def.mp (BitVec.not_le.mp hle), hsub⟩

end I4A
