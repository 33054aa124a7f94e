import I4A.Core.Checked
import I4A.Sync.Protocol
import Mathlib.Data.Vector.Basic

/-! # The lock's messages as bytes

`sync_t` with the arrays that the component id of a message selects from. Where that id is one of
the enumeration, the handlers below do what those of `Sync` do.
-/

namespace I4A

/-- `RS_LAST_COMPONENT_ID`. -/
abbrev rsLastComponentId : Nat := 7

/-- The value of the enumerator in `ring_share.h`. -/
def ComponentId.index : ComponentId → Fin rsLastComponentId
  | .sync => 0
  | .routing => 1
  | .sharedState => 2
  | .channelManager => 3
  | .resetManager => 4
  | .infoManager => 5
  | .priorityManager => 6

/-- The component with an index. -/
def ComponentId.ofIndex (i : Fin rsLastComponentId) : ComponentId :=
  #v[.sync, .routing, .sharedState, .channelManager, .resetManager, .infoManager,
    .priorityManager][i]

def ComponentId.byte (csId : ComponentId) : UInt8 := UInt8.ofNat csId.index.val

/-- `sync_msg_t`; a request leaves the last byte of the union zero. -/
def SyncMsg.encode : SyncMsg → List UInt8
  | .tokenRequest csId => [1, csId.byte, 0]
  | .tokenGrant csId destination => [2, destination.output, csId.byte]

/-- `sync_cs_callback_t`; the callback is there or not. -/
structure SyncCsCallback where
  callback : Bool
  isInside : Bool
  deriving DecidableEq

/-- `sync_t` and its `sync_leader_t`. -/
structure SyncArrays where
  orientation : Orientation
  criticalSections : Vector SyncCsCallback rsLastComponentId
  firstDeviceToGetToken : Orientation
  requestedTokens : Vector UInt8 rsLastComponentId
  isTokenOut : Vector Bool rsLastComponentId
  deriving DecidableEq

namespace SyncArrays

open Checked

/-- The messages broadcast for `RS_SYNC`. -/
abbrev Sent := List (List UInt8)

variable (self : SyncArrays) (csId : UInt8)

def isLeader : Bool := self.orientation = .center

/-! ## leader.c -/

/-- `issue_new_token`. -/
def issueNewToken : Checked (SyncArrays × Sent) := do
  let isTokenOut ← store self.isTokenOut csId.toNat true
  return ({ self with isTokenOut }, [[2, self.firstDeviceToGetToken.output, csId]])

/-- The leader's `request_critical_section`. -/
def leaderRequest : Checked (SyncArrays × Sent) := do
  let out ← load self.isTokenOut csId.toNat
  if out then
    let requested ← load self.requestedTokens csId.toNat
    if requested < 255 then
      let requestedTokens ← store self.requestedTokens csId.toNat (requested + 1)
      return ({ self with requestedTokens }, [])
    else return (self, [])
  else self.issueNewToken csId

/-- The end of the leader's `on_token_grant`. -/
def leaderRelease : Checked (SyncArrays × Sent) := do
  let requested ← load self.requestedTokens csId.toNat
  if requested > 0 then
    let requestedTokens ← store self.requestedTokens csId.toNat (requested - 1)
    { self with requestedTokens }.issueNewToken csId
  else
    let isTokenOut ← store self.isTokenOut csId.toNat false
    return ({ self with isTokenOut }, [])

/-! ## follower.c -/

/-- The follower's `request_critical_section`. -/
def followerRequest : Checked (SyncArrays × Sent) := .ok (self, [[1, csId, 0]])

/-- The end of the follower's `on_token_grant`. -/
def followerRelease : Checked (SyncArrays × Sent) :=
  .ok (self, [[2, UInt8.ofNat (self.orientation.val % Orientation.nDevices + 1), csId]])

/-! ## sync.c -/

/-- `sync_request_critical_section`. -/
def requestCriticalSection : Checked (SyncArrays × Sent) :=
  if self.isLeader then self.leaderRequest csId else self.followerRequest csId

/-- What follows the callback in `on_token_grant`. -/
def release : Checked (SyncArrays × Sent) :=
  if self.isLeader then self.leaderRelease csId else self.followerRelease csId

def setInside (inside : Bool) : Checked SyncArrays := do
  let entry ← load self.criticalSections csId.toNat
  let criticalSections ← store self.criticalSections csId.toNat { entry with isInside := inside }
  return { self with criticalSections }

/-- `on_token_grant`, which calls `callback` where one is registered; both implementations check
the destination and call it. -/
def onTokenGrant {Called : Type} (callback : Checked Called) (destination : UInt8) :
    Checked (SyncArrays × Option Called × Sent) :=
  if destination ≠ self.orientation.output then .ok (self, none, [])
  else do
    let entry ← load self.criticalSections csId.toNat
    if entry.callback then
      let inside ← self.setInside csId true
      let called ← callback
      let outside ← inside.setInside csId false
      let released ← outside.release csId
      return (released.1, some called, released.2)
    else
      let released ← self.release csId
      return (released.1, none, released.2)

/-- `on_token_request`; followers do not install it. -/
def onTokenRequest {Called : Type} : Checked (SyncArrays × Option Called × Sent) :=
  if self.isLeader then do
    let requested ← self.requestCriticalSection csId
    return (requested.1, none, requested.2)
  else .ok (self, none, [])

/-- `on_sibling_message` of `sync.c`; a message of another length is ignored. -/
def onSiblingMessage {Called : Type} (callback : Checked Called) :
    List UInt8 → Checked (SyncArrays × Option Called × Sent)
  | [kind, first, second] =>
      if kind = 2 then self.onTokenGrant second callback first
      else if kind = 1 then self.onTokenRequest first
      else .ok (self, none, [])
  | _ => .ok (self, none, [])

/-- A message makes the lock use an id that is no component: a request that reaches the leader, or
a grant that reaches its destination. -/
def UsesNoComponent : List UInt8 → Prop
  | [kind, first, second] =>
      (kind = 1 ∧ self.isLeader ∧ rsLastComponentId ≤ first.toNat) ∨
        (kind = 2 ∧ first = self.orientation.output ∧ rsLastComponentId ≤ second.toNat)
  | _ => False

/-! ## The components -/

/-- The lock that the arrays stand for. -/
def toSync : Sync where
  orientation := self.orientation
  registered csId := self.criticalSections[csId.index].callback
  isInside csId := self.criticalSections[csId.index].isInside
  leader :=
    { firstDeviceToGetToken := self.firstDeviceToGetToken
      requestedTokens csId := self.requestedTokens[csId.index]
      isTokenOut csId := self.isTokenOut[csId.index] }

end SyncArrays

/-- The whole of `on_sibling_message`: a callback that was started returns. -/
def Sync.Turn.finish (turn : Sync.Turn) : Sync × List SyncMsg :=
  match turn.callback with
  | some csId => turn.sync.leaveCriticalSection csId
  | none => (turn.sync, turn.sent)

/-! ## The bytes and the arrays -/

namespace ComponentId

theorem byte_toNat (csId : ComponentId) : csId.byte.toNat = csId.index.val := by
  cases csId <;> rfl

theorem ofIndex_index (csId : ComponentId) : ofIndex csId.index = csId := by
  cases csId <;> rfl

theorem index_ofIndex (i : Fin rsLastComponentId) : (ofIndex i).index = i := by
  revert i
  decide

theorem index_injective {csId csId' : ComponentId} (h : csId.index = csId'.index) :
    csId = csId' := by
  rw [← ofIndex_index csId, h, ofIndex_index]

theorem exists_byte {b : UInt8} (h : b.toNat < rsLastComponentId) :
    ∃ csId : ComponentId, csId.byte = b := by
  refine ⟨ofIndex ⟨b.toNat, h⟩, ?_⟩
  unfold byte
  rw [index_ofIndex]
  exact UInt8.ofNat_toNat

theorem set_index {α : Type} (xs : Vector α rsLastComponentId) (csId : ComponentId) (x : α) :
    (fun csId' : ComponentId => (xs.set csId.index.val x csId.index.isLt)[csId'.index]) =
      Function.update (fun csId' => xs[csId'.index]) csId x := by
  funext csId'
  by_cases h : csId' = csId
  · subst h
    simp
  · have hne : csId.index.val ≠ csId'.index.val :=
      fun heq => h (index_injective (Fin.ext heq.symm))
    rw [Function.update_of_ne h]
    exact Vector.getElem_set_ne _ _ hne

variable {α : Type} (xs : Vector α rsLastComponentId) (csId : ComponentId)

theorem load_byte : Checked.load xs csId.byte.toNat = .ok xs[csId.index] := by
  rw [byte_toNat]
  exact Checked.load_of_lt xs csId.index.isLt

theorem store_byte (x : α) :
    Checked.store xs csId.byte.toNat x = .ok (xs.set csId.index.val x csId.index.isLt) := by
  rw [byte_toNat]
  exact Checked.store_of_lt xs csId.index.isLt x

end ComponentId

/-! ## Refinement of the lock -/

namespace SyncArrays

open Checked

variable (self : SyncArrays) (csId : ComponentId)

/-- A handler ends with the arrays and the messages that the lock's own operation gives. -/
def Refines (result : Checked (SyncArrays × Sent)) (lock : Sync × List SyncMsg) : Prop :=
  ∃ arrays, result = .ok (arrays, lock.2.map SyncMsg.encode) ∧ arrays.toSync = lock.1

theorem toSync_setTokenOut (out : Bool) :
    { self with isTokenOut := self.isTokenOut.set csId.index.val out csId.index.isLt }.toSync =
      self.toSync.setTokenOut csId out := by
  simp only [toSync, Sync.setTokenOut, ComponentId.set_index]

theorem toSync_setRequestedTokens (n : UInt8) :
    { self with
      requestedTokens := self.requestedTokens.set csId.index.val n csId.index.isLt }.toSync =
      self.toSync.setRequestedTokens csId n := by
  simp only [toSync, Sync.setRequestedTokens, ComponentId.set_index]

theorem issueNewToken_refines :
    Refines (self.issueNewToken csId.byte) (self.toSync.issueNewToken csId) := by
  refine ⟨_, ?_, self.toSync_setTokenOut csId true⟩
  unfold issueNewToken
  rw [ComponentId.store_byte]
  rfl

theorem leaderRequest_refines :
    Refines (self.leaderRequest csId.byte) (self.toSync.leaderRequest csId) := by
  unfold leaderRequest Sync.leaderRequest
  rw [ComponentId.load_byte]
  by_cases hout : self.isTokenOut[csId.index] = true
  · have hout' : self.toSync.leader.isTokenOut csId = true := hout
    rw [if_pos hout']
    simp only [hout, if_true, bind, Except.bind]
    rw [ComponentId.load_byte]
    by_cases hlt : self.requestedTokens[csId.index] < 255
    · have hlt' : self.toSync.leader.requestedTokens csId < 255 := hlt
      rw [if_pos hlt']
      simp only [if_pos hlt]
      rw [ComponentId.store_byte]
      exact ⟨_, rfl, self.toSync_setRequestedTokens csId _⟩
    · have hlt' : ¬ self.toSync.leader.requestedTokens csId < 255 := hlt
      rw [if_neg hlt']
      simp only [if_neg hlt]
      exact ⟨self, rfl, rfl⟩
  · have hout' : ¬ self.toSync.leader.isTokenOut csId = true := hout
    rw [if_neg hout']
    simp only [if_neg hout, bind, Except.bind]
    exact self.issueNewToken_refines csId

theorem leaderRelease_refines :
    Refines (self.leaderRelease csId.byte) (self.toSync.leaderRelease csId) := by
  unfold leaderRelease Sync.leaderRelease
  rw [ComponentId.load_byte]
  by_cases hpos : self.requestedTokens[csId.index] > 0
  · have hpos' : self.toSync.leader.requestedTokens csId > 0 := hpos
    rw [if_pos hpos']
    simp only [if_pos hpos, bind, Except.bind]
    rw [ComponentId.store_byte]
    have hissue := issueNewToken_refines { self with
      requestedTokens := self.requestedTokens.set csId.index.val
        (self.requestedTokens[csId.index] - 1) csId.index.isLt } csId
    rw [self.toSync_setRequestedTokens csId] at hissue
    exact hissue
  · have hpos' : ¬ self.toSync.leader.requestedTokens csId > 0 := hpos
    rw [if_neg hpos']
    simp only [if_neg hpos, bind, Except.bind]
    rw [ComponentId.store_byte]
    exact ⟨_, rfl, self.toSync_setTokenOut csId false⟩

theorem followerRelease_refines :
    Refines (self.followerRelease csId.byte) (self.toSync.followerRelease csId) := by
  refine ⟨self, ?_, rfl⟩
  have hnext : UInt8.ofNat (self.orientation.val % Orientation.nDevices + 1) =
      self.orientation.next.output := by
    cases self.orientation <;> rfl
  unfold followerRelease
  rw [hnext]
  rfl

theorem requestCriticalSection_refines :
    Refines (self.requestCriticalSection csId.byte)
      (self.toSync.requestCriticalSection csId) := by
  unfold requestCriticalSection Sync.requestCriticalSection
  have hlead : self.toSync.isLeader = self.isLeader := rfl
  rw [hlead]
  cases self.isLeader with
  | true => exact self.leaderRequest_refines csId
  | false => exact ⟨self, rfl, rfl⟩

theorem release_refines :
    Refines (self.release csId.byte) (self.toSync.release csId) := by
  unfold release Sync.release
  have hlead : self.toSync.isLeader = self.isLeader := rfl
  rw [hlead]
  cases self.isLeader with
  | true => exact self.leaderRelease_refines csId
  | false => exact self.followerRelease_refines csId

theorem setInside_refines (inside : Bool) :
    ∃ arrays, self.setInside csId.byte inside = .ok arrays ∧
      arrays.toSync = self.toSync.setInside csId inside := by
  unfold setInside
  rw [ComponentId.load_byte]
  simp only [bind, Except.bind]
  rw [ComponentId.store_byte]
  refine ⟨_, rfl, ?_⟩
  have hset := ComponentId.set_index self.criticalSections csId
    { self.criticalSections[csId.index] with isInside := inside }
  have hregistered := congrArg (fun entries csId' => (entries csId').callback) hset
  have hinside := congrArg (fun entries csId' => (entries csId').isInside) hset
  simp only [toSync, Sync.setInside, hregistered, hinside]
  congr 1
  · funext csId'
    by_cases h : csId' = csId
    · subst h
      simp
    · simp [h]
  · funext csId'
    by_cases h : csId' = csId
    · subst h
      simp
    · simp [h]

section Callback

variable {Called : Type} {callback : Checked Called} {called : Called}

/-- A handler ends as the lock's own turn does, and calls the callback if the turn does. -/
def Follows (called : Called) (result : Checked (SyncArrays × Option Called × Sent))
    (turn : Sync.Turn) : Prop :=
  ∃ arrays, result =
      .ok (arrays, turn.callback.map fun _ => called, turn.finish.2.map SyncMsg.encode) ∧
    arrays.toSync = turn.finish.1

theorem onTokenRequest_follows :
    Follows called (self.onTokenRequest csId.byte) (self.toSync.onTokenRequest csId) := by
  have hlead : self.toSync.isLeader = self.isLeader := rfl
  unfold onTokenRequest Sync.onTokenRequest
  rw [hlead]
  cases self.isLeader with
  | true =>
      obtain ⟨arrays, hrun, habs⟩ := self.requestCriticalSection_refines csId
      refine ⟨arrays, ?_, habs⟩
      rw [if_pos rfl, if_pos rfl, hrun]
      rfl
  | false => exact ⟨self, rfl, rfl⟩

theorem onTokenGrant_follows (hcallback : callback = .ok called) (destination : Orientation) :
    Follows called (self.onTokenGrant csId.byte callback destination.output)
      (self.toSync.onTokenGrant csId destination) := by
  unfold onTokenGrant Sync.onTokenGrant
  by_cases hdest : destination = self.orientation
  · have hdest' : destination = self.toSync.orientation := hdest
    rw [if_neg (not_not_intro (congrArg Orientation.output hdest)),
      if_neg (not_not_intro hdest'), ComponentId.load_byte]
    simp only [bind, Except.bind]
    by_cases hreg : self.criticalSections[csId.index].callback = true
    · have hreg' : self.toSync.registered csId = true := hreg
      obtain ⟨inside, hset, hinside⟩ := self.setInside_refines csId true
      obtain ⟨outside, hclear, houtside⟩ := inside.setInside_refines csId false
      obtain ⟨arrays, hrun, habs⟩ := outside.release_refines csId
      rw [houtside, hinside] at hrun habs
      rw [if_pos hreg, if_pos hreg', hset, hcallback]
      simp only [hclear, hrun]
      exact ⟨arrays, rfl, habs⟩
    · have hreg' : ¬ self.toSync.registered csId = true := hreg
      obtain ⟨arrays, hrun, habs⟩ := self.release_refines csId
      rw [if_neg hreg, if_neg hreg', hrun]
      exact ⟨arrays, rfl, habs⟩
  · have hdest' : destination.output ≠ self.orientation.output :=
      fun h => hdest (Orientation.output_injective h)
    have hdest'' : destination ≠ self.toSync.orientation := hdest
    rw [if_pos hdest', if_pos hdest'']
    exact ⟨self, rfl, rfl⟩

theorem onSiblingMessage_follows (hcallback : callback = .ok called) (msg : SyncMsg) :
    Follows called (self.onSiblingMessage callback msg.encode)
      (self.toSync.onSiblingMessage msg) := by
  cases msg with
  | tokenRequest csId => exact self.onTokenRequest_follows csId
  | tokenGrant csId destination => exact self.onTokenGrant_follows csId hcallback destination

end Callback

/-! ## Ids that are no component -/

section Ids

variable {Called : Type} {callback : Checked Called} {called : Called} {id : UInt8}

theorem Follows.safe {result : Checked (SyncArrays × Option Called × Sent)} {turn : Sync.Turn}
    (h : Follows called result turn) : Safe result := by
  obtain ⟨arrays, hrun, -⟩ := h
  exact ⟨_, hrun⟩

theorem not_safe_request (hlead : self.isLeader = true) (h : rsLastComponentId ≤ id.toNat) :
    ¬ Safe (self.onTokenRequest id : Checked (SyncArrays × Option Called × Sent)) := by
  unfold onTokenRequest requestCriticalSection leaderRequest
  rw [hlead, if_pos rfl, if_pos rfl, load_of_le _ h]
  exact not_safe_error _

theorem not_safe_grant (h : rsLastComponentId ≤ id.toNat) :
    ¬ Safe (self.onTokenGrant id callback self.orientation.output) := by
  unfold onTokenGrant
  rw [if_neg (not_not_intro rfl), load_of_le _ h]
  exact not_safe_error _

theorem onTokenRequest_follower (hlead : ¬ self.isLeader = true) :
    (self.onTokenRequest id : Checked (SyncArrays × Option Called × Sent)) =
      .ok (self, none, []) :=
  if_neg hlead

theorem onTokenGrant_elsewhere {destination : UInt8} (h : destination ≠ self.orientation.output) :
    self.onTokenGrant id callback destination = .ok (self, none, []) :=
  if_pos h

theorem safe_onTokenRequest (called : Called) (h : id.toNat < rsLastComponentId) :
    Safe (self.onTokenRequest id : Checked (SyncArrays × Option Called × Sent)) := by
  obtain ⟨csId, rfl⟩ := ComponentId.exists_byte h
  have hfollows : Follows called (self.onTokenRequest csId.byte) _ :=
    self.onTokenRequest_follows csId
  exact hfollows.safe

theorem safe_onTokenGrant (hcallback : callback = .ok called) (h : id.toNat < rsLastComponentId)
    (destination : UInt8) : Safe (self.onTokenGrant id callback destination) := by
  by_cases hdest : destination = self.orientation.output
  · obtain ⟨csId, rfl⟩ := ComponentId.exists_byte h
    rw [hdest]
    exact (self.onTokenGrant_follows csId hcallback self.orientation).safe
  · rw [self.onTokenGrant_elsewhere hdest]
    exact safe_ok _

theorem safe_request_iff (called : Called) :
    Safe (self.onTokenRequest id : Checked (SyncArrays × Option Called × Sent)) ↔
      ¬ (self.isLeader ∧ rsLastComponentId ≤ id.toNat) := by
  constructor
  · intro hsafe hbad
    exact self.not_safe_request hbad.1 hbad.2 hsafe
  · intro hgood
    by_cases hlead : self.isLeader = true
    · have hlt : id.toNat < rsLastComponentId := by
        by_contra hle
        exact hgood ⟨hlead, Nat.le_of_not_lt hle⟩
      exact self.safe_onTokenRequest called hlt
    · rw [self.onTokenRequest_follower hlead]
      exact safe_ok _

theorem safe_grant_iff (hcallback : callback = .ok called) (destination : UInt8) :
    Safe (self.onTokenGrant id callback destination) ↔
      ¬ (destination = self.orientation.output ∧ rsLastComponentId ≤ id.toNat) := by
  constructor
  · rintro hsafe ⟨rfl, hle⟩
    exact self.not_safe_grant hle hsafe
  · intro hgood
    by_cases hdest : destination = self.orientation.output
    · have hlt : id.toNat < rsLastComponentId := by
        by_contra hle
        exact hgood ⟨hdest, Nat.le_of_not_lt hle⟩
      exact self.safe_onTokenGrant hcallback hlt destination
    · rw [self.onTokenGrant_elsewhere hdest]
      exact safe_ok _

/-- The lock's handler stays inside its arrays unless the message makes it use an id that is no
component. -/
theorem onSiblingMessage_safe_iff (hcallback : callback = .ok called) (msg : List UInt8) :
    Safe (self.onSiblingMessage callback msg) ↔ ¬ self.UsesNoComponent msg := by
  rcases msg with _ | ⟨kind, _ | ⟨first, _ | ⟨second, _ | ⟨fourth, rest⟩⟩⟩⟩
  case cons.cons.cons.nil =>
      simp only [onSiblingMessage, UsesNoComponent]
      by_cases hgrant : kind = 2
      · subst hgrant
        rw [if_pos rfl, self.safe_grant_iff hcallback]
        simp
      · rw [if_neg hgrant]
        by_cases hrequest : kind = 1
        · subst hrequest
          rw [if_pos rfl, self.safe_request_iff called]
          simp
        · rw [if_neg hrequest]
          simp [hgrant, hrequest, safe_ok]
  all_goals simp [onSiblingMessage, UsesNoComponent, safe_ok]

end Ids

end SyncArrays

end I4A
