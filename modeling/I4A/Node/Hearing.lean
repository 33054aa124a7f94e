import I4A.Node.Model

/-! # What a handler does to its board

The role after a sibling event, alone and after all that are stored, and the
calls that go with it: boards other than the root's center answer a sibling
event with peer messages only.
-/

namespace I4A

/-- The role after one more sibling event. -/
def hearRole (o : Orientation) (role : RtRole) (ev : RtSiblEvent) : RtRole :=
  match dispatchSibl o role ev with
  | some result => result.1
  | none => role

/-- The role after the stored sibling events. -/
def settleRole (o : Orientation) (role : RtRole) (stored : List RtSiblEvent) : RtRole :=
  stored.foldl (hearRole o) role

/-! ## Hearing a sibling event -/

@[simp] theorem settleRole_nil (o : Orientation) (role : RtRole) : settleRole o role [] = role :=
  rfl

@[simp] theorem settleRole_cons (o : Orientation) (role : RtRole) (ev : RtSiblEvent)
    (rest : List RtSiblEvent) :
    settleRole o role (ev :: rest) = settleRole o (hearRole o role ev) rest := rfl

theorem settleRole_append (o : Orientation) (role : RtRole) (first second : List RtSiblEvent) :
    settleRole o role (first ++ second) = settleRole o (settleRole o role first) second :=
  List.foldl_append

namespace Forwarder

/-- A forwarder's state after one more sibling event. -/
def hear (self : Orientation) (state : RtForwarderState) : RtSiblEvent → RtForwarderState
  | .updateDtr event => (Sibling.onUpdateDtr state event).1
  | .provision event => (Sibling.onProvision self state event).1
  | .sendNewGatewayRequest event => (Sibling.onSendNewGatewayRequest state event).1
  | .newGatewayWinner event => (Sibling.onNewGatewayWinner state event).1
  | _ => state

end Forwarder

open Forwarder

theorem hearRole_forwarder (o : Orientation) (state : RtForwarderState) (ev : RtSiblEvent) :
    hearRole o (.forwarder state) ev = .forwarder (hear o state ev) := by
  cases ev <;> rfl

theorem hearRole_home (o : Orientation) (state : RtHomeState) (ev : RtSiblEvent) :
    ∃ state', hearRole o (.home state) ev = .home state' := by
  cases ev <;> exact ⟨_, rfl⟩

theorem settleRole_forwarder (o : Orientation) (state : RtForwarderState)
    (stored : List RtSiblEvent) :
    settleRole o (.forwarder state) stored = .forwarder (stored.foldl (hear o) state) := by
  induction stored generalizing state with
  | nil => rfl
  | cons ev rest ih => rw [settleRole_cons, hearRole_forwarder, ih, List.foldl_cons]

theorem settleRole_home (o : Orientation) (state : RtHomeState) (stored : List RtSiblEvent) :
    ∃ state', settleRole o (.home state) stored = .home state' := by
  induction stored generalizing state with
  | nil => exact ⟨state, rfl⟩
  | cons ev rest ih =>
      obtain ⟨state', h⟩ := hearRole_home o state ev
      rw [settleRole_cons, h]
      exact ih state'

namespace Forwarder

variable {self : Orientation} {state : RtForwarderState}

theorem hear_provision {event : RtSiblProvision} (h : state.globalState ≠ .withNetwork) :
    (hear self state (.provision event)).isLocalRoot = false ∧
      (hear self state (.provision event)).globalState = .withNetwork := by
  simp [hear, Sibling.onProvision, h]

theorem hear_provision_withNetwork {event : RtSiblProvision}
    (h : state.globalState = .withNetwork) : hear self state (.provision event) = state := by
  simp [hear, Sibling.onProvision, h]

theorem Sibling.refuses_iff (state : RtForwarderState) (dtr : BitVec 32) :
    Sibling.refuses state dtr = true ↔ dtr = 0 ∨ ¬ (state.dtr = 0 ∨ dtr < state.dtr) := by
  rw [Sibling.refuses, decide_eq_true_eq]

theorem hear_updateDtr (self : Orientation) (state : RtForwarderState) (dtr : BitVec 32) :
    hear self state (.updateDtr ⟨dtr⟩) =
      if Sibling.refuses state dtr then state
      else { state with dtr := dtr, isLocalRoot := false } := by
  simp only [hear, Sibling.onUpdateDtr, Sibling.refuses_iff]
  by_cases hzero : dtr = 0
  · rw [if_pos hzero, if_pos (.inl hzero)]
  · by_cases hbetter : state.dtr = 0 ∨ dtr < state.dtr
    · have haccept : ¬ (dtr = 0 ∨ ¬ (state.dtr = 0 ∨ dtr < state.dtr)) :=
        fun h => h.elim hzero fun h => h hbetter
      rw [if_neg hzero, if_pos hbetter, if_neg haccept]
    · rw [if_neg hzero, if_neg hbetter, if_pos (.inr hbetter)]

theorem hear_sendNewGatewayRequest (self : Orientation) (state : RtForwarderState)
    (event : RtSiblSendNewGatewayRequest) :
    hear self state (.sendNewGatewayRequest event) = state ∨
      hear self state (.sendNewGatewayRequest event) =
        { state with globalState := .onGwRequest, dtr := 0 } := by
  simp only [hear, Sibling.onSendNewGatewayRequest]
  split
  · exact .inl rfl
  · split
    · exact .inl rfl
    · split
      · exact .inl rfl
      · split
        · exact .inl rfl
        · exact .inr rfl

/-- A winner demotes every board but one with distance 1. -/
theorem hear_newGatewayWinner (self : Orientation) (state : RtForwarderState)
    (event : RtSiblNewGatewayWinner) :
    hear self state (.newGatewayWinner event) =
      if state.dtr = 1 then state
      else { state with
        globalState := .withNetwork, isLocalRoot := false, dtr := event.dtr + 1 } := by
  by_cases h : state.dtr = 1
  · rw [hear, Sibling.onNewGatewayWinner, if_pos h, if_pos h]
  · rw [hear, Sibling.onNewGatewayWinner, if_neg h, if_neg h]

end Forwarder

theorem hear_kind {role role' : RtRole} {actions : List RtAction} {ev : RtSiblEvent}
    (hd : dispatchSibl o role ev = some (role', actions)) : role' = hearRole o role ev := by
  simp [hearRole, hd]

/-! ## The calls of a sibling event -/

/-- No board of such a node broadcasts in answer to a sibling event, and none touches the
gateway. -/
theorem sibl_silent {role role' : RtRole} {actions : List RtAction} {ev : RtSiblEvent}
    (hkind : (∃ state, role = .home state) ∨ ∃ state, role = .forwarder state)
    (hd : dispatchSibl o role ev = some (role', actions)) :
    siblEvents actions = [] ∧ ∀ gateway, gatewayAfter gateway actions = gateway := by
  rcases hkind with ⟨state, rfl⟩ | ⟨state, rfl⟩
  · cases ev with
    | onStart =>
        cases hd
        exact ⟨rfl, fun _ => rfl⟩
    | provision payload =>
        simp only [dispatchSibl, RtRole.ofHome, Home.onProvision, Option.some.injEq,
          Prod.mk.injEq] at hd
        obtain ⟨-, rfl⟩ := hd
        split
        · exact ⟨rfl, fun _ => rfl⟩
        · refine ⟨rfl, fun gateway => ?_⟩
          simp [RtAction.gateway, getNodeSubnet_ne_zero]
    | updateDtr payload =>
        cases hd
        exact ⟨rfl, fun _ => rfl⟩
    | sendNewGatewayRequest payload =>
        cases hd
        exact ⟨rfl, fun _ => rfl⟩
    | newGatewayWinner payload =>
        cases hd
        exact ⟨rfl, fun _ => rfl⟩
    | unknown id => cases hd
  · cases ev with
    | onStart =>
        cases hd
        exact ⟨rfl, fun _ => rfl⟩
    | provision payload =>
        simp only [dispatchSibl, RtRole.ofForwarder, Sibling.onProvision, Option.some.injEq,
          Prod.mk.injEq] at hd
        obtain ⟨-, rfl⟩ := hd
        split <;> exact ⟨rfl, fun _ => rfl⟩
    | updateDtr payload =>
        simp only [dispatchSibl, RtRole.ofForwarder, Sibling.onUpdateDtr, Option.some.injEq,
          Prod.mk.injEq] at hd
        obtain ⟨-, rfl⟩ := hd
        split
        · exact ⟨rfl, fun _ => rfl⟩
        · split
          · split <;> exact ⟨rfl, fun _ => rfl⟩
          · exact ⟨rfl, fun _ => rfl⟩
    | sendNewGatewayRequest payload =>
        simp only [dispatchSibl, RtRole.ofForwarder, Sibling.onSendNewGatewayRequest,
          Option.some.injEq, Prod.mk.injEq] at hd
        obtain ⟨-, rfl⟩ := hd
        split
        · exact ⟨rfl, fun _ => rfl⟩
        · split
          · exact ⟨rfl, fun _ => rfl⟩
          · split
            · exact ⟨rfl, fun _ => rfl⟩
            · split <;> exact ⟨rfl, fun _ => rfl⟩
    | newGatewayWinner payload =>
        simp only [dispatchSibl, RtRole.ofForwarder, Sibling.onNewGatewayWinner,
          Option.some.injEq, Prod.mk.injEq] at hd
        obtain ⟨-, rfl⟩ := hd
        split <;> exact ⟨rfl, fun _ => rfl⟩
    | unknown id => cases hd

end I4A
