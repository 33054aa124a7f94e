import I4A.Config

/-! # The lock of a node

`sync.c`, `leader.c` and `follower.c`. The center board runs the leader's code,
the other four the follower's. `on_token_grant` calls the component between
setting and clearing `is_inside`; it is split there, so that other boards may
move while a callback runs.
-/

namespace I4A

/-- `sync_msg_t`. -/
inductive SyncMsg where
  | tokenRequest (csId : ComponentId)
  | tokenGrant (csId : ComponentId) (destination : Orientation)
  deriving DecidableEq, Repr

/-- `sync_leader_t`. -/
structure SyncLeader where
  firstDeviceToGetToken : Orientation
  requestedTokens : ComponentId → UInt8
  isTokenOut : ComponentId → Bool

/-- `sync_t`; `registered` tells which components have a callback. -/
structure Sync where
  orientation : Orientation
  registered : ComponentId → Bool
  isInside : ComponentId → Bool
  leader : SyncLeader

/-- `sync_init` and the calls of `sync_register_critical_section` that follow it. -/
def syncInit (orientation : Orientation) (registered : ComponentId → Bool) : Sync where
  orientation := orientation
  registered := registered
  isInside := fun _ => false
  leader :=
    { firstDeviceToGetToken := .north
      requestedTokens := fun _ => 0
      isTokenOut := fun _ => false }

namespace Sync

def isLeader (self : Sync) : Bool := self.orientation = .center

variable (self : Sync) (csId : ComponentId)

def setInside (inside : Bool) : Sync :=
  { self with isInside := Function.update self.isInside csId inside }

def setTokenOut (out : Bool) : Sync :=
  { self with
    leader := { self.leader with
      isTokenOut := Function.update self.leader.isTokenOut csId out } }

def setRequestedTokens (n : UInt8) : Sync :=
  { self with
    leader := { self.leader with
      requestedTokens := Function.update self.leader.requestedTokens csId n } }

/-! ## leader.c -/

/-- `issue_new_token`. -/
def issueNewToken : Sync × List SyncMsg :=
  (self.setTokenOut csId true, [.tokenGrant csId self.leader.firstDeviceToGetToken])

/-- The leader's `request_critical_section`; the counter stops at 255. -/
def leaderRequest : Sync × List SyncMsg :=
  if self.leader.isTokenOut csId then
    if self.leader.requestedTokens csId < 255 then
      (self.setRequestedTokens csId (self.leader.requestedTokens csId + 1), [])
    else (self, [])
  else self.issueNewToken csId

/-- The end of the leader's `on_token_grant`: the token comes back. -/
def leaderRelease : Sync × List SyncMsg :=
  if self.leader.requestedTokens csId > 0 then
    (self.setRequestedTokens csId (self.leader.requestedTokens csId - 1)).issueNewToken csId
  else (self.setTokenOut csId false, [])

/-! ## follower.c -/

/-- The follower's `request_critical_section`. -/
def followerRequest : Sync × List SyncMsg := (self, [.tokenRequest csId])

/-- The end of the follower's `on_token_grant`: the token goes to the next board. -/
def followerRelease : Sync × List SyncMsg :=
  (self, [.tokenGrant csId self.orientation.next])

/-! ## sync.c -/

/-- `sync_request_critical_section`. -/
def requestCriticalSection : Sync × List SyncMsg :=
  if self.isLeader then self.leaderRequest csId else self.followerRequest csId

/-- What follows the callback in `on_token_grant`, without the clearing of `is_inside`. -/
def release : Sync × List SyncMsg :=
  if self.isLeader then self.leaderRelease csId else self.followerRelease csId

/-- The return of the callback. -/
def leaveCriticalSection : Sync × List SyncMsg := (self.setInside csId false).release csId

/-- What a sibling message does: the new state, the messages sent, and the component whose
callback starts. -/
structure Turn where
  sync : Sync
  sent : List SyncMsg
  callback : Option ComponentId

/-- `on_token_grant` up to the callback, or to its end where no callback is registered. -/
def onTokenGrant (destination : Orientation) : Turn :=
  if destination ≠ self.orientation then ⟨self, [], none⟩
  else if self.registered csId then ⟨self.setInside csId true, [], some csId⟩
  else ⟨(self.release csId).1, (self.release csId).2, none⟩

/-- `on_token_request`; followers do not install it. -/
def onTokenRequest : Turn :=
  if self.isLeader then
    ⟨(self.requestCriticalSection csId).1, (self.requestCriticalSection csId).2, none⟩
  else ⟨self, [], none⟩

/-- `on_sibling_message` of `sync.c`. -/
def onSiblingMessage : SyncMsg → Turn
  | .tokenGrant csId destination => self.onTokenGrant csId destination
  | .tokenRequest csId => self.onTokenRequest csId

end Sync

/-! ## Accounting for tokens -/

/-- A grant of the component's token. -/
def SyncMsg.isGrant (csId : ComponentId) : SyncMsg → Bool
  | .tokenGrant csId' _ => csId' = csId
  | .tokenRequest _ => false

/-- Grants among the messages a board sends. -/
def grantsOf (csId : ComponentId) (sent : List SyncMsg) : Nat := sent.countP (·.isGrant csId)

namespace Sync

variable {self : Sync} {csId : ComponentId}

/-- One if the board is inside the component's callback. -/
def held (self : Sync) (csId : ComponentId) : Nat := if self.isInside csId then 1 else 0

/-- One if the board is the leader and has its token out. -/
def owed (self : Sync) (csId : ComponentId) : Nat :=
  if self.isLeader ∧ self.leader.isTokenOut csId then 1 else 0

/-- What no operation of a board changes. -/
def SameIdentity (self other : Sync) : Prop :=
  other.orientation = self.orientation ∧ other.registered = self.registered ∧
    other.leader.firstDeviceToGetToken = self.leader.firstDeviceToGetToken

/-- An operation neither makes nor loses a token: those it sends and holds, less those the
leader has out, are those it had and took. -/
def Balanced (self : Sync) (csId : ComponentId) (taken : Nat) (other : Sync)
    (sent : List SyncMsg) : Prop :=
  grantsOf csId sent + other.held csId + self.owed csId =
    taken + self.held csId + other.owed csId

theorem SameIdentity.refl (self : Sync) : self.SameIdentity self := ⟨rfl, rfl, rfl⟩

theorem SameIdentity.isLeader {other : Sync} (h : self.SameIdentity other) :
    other.isLeader = self.isLeader := by
  simp only [Sync.isLeader, h.1]

@[simp] theorem isLeader_setTokenOut (out : Bool) :
    (self.setTokenOut csId out).isLeader = self.isLeader := rfl

@[simp] theorem held_setTokenOut (out : Bool) (cs : ComponentId) :
    (self.setTokenOut csId out).held cs = self.held cs := rfl

@[simp] theorem held_setRequestedTokens (n : UInt8) (cs : ComponentId) :
    (self.setRequestedTokens csId n).held cs = self.held cs := rfl

@[simp] theorem owed_setRequestedTokens (n : UInt8) (cs : ComponentId) :
    (self.setRequestedTokens csId n).owed cs = self.owed cs := rfl

@[simp] theorem owed_setInside (inside : Bool) (cs : ComponentId) :
    (self.setInside csId inside).owed cs = self.owed cs := rfl

theorem held_setInside (inside : Bool) (cs : ComponentId) :
    (self.setInside csId inside).held cs =
      if cs = csId then (if inside then 1 else 0) else self.held cs := by
  by_cases h : cs = csId
  · subst h
    simp [held, setInside]
  · simp [held, setInside, h]

theorem owed_leader (hl : self.isLeader = true) :
    self.owed csId = if self.leader.isTokenOut csId then 1 else 0 := by
  simp [owed, hl]

theorem owed_follower (hl : self.isLeader = false) : self.owed csId = 0 := by
  simp [owed, hl]

theorem owed_setTokenOut (hl : self.isLeader = true) (out : Bool) (cs : ComponentId) :
    (self.setTokenOut csId out).owed cs =
      if cs = csId then (if out then 1 else 0) else self.owed cs := by
  have hl' : (self.setTokenOut csId out).isLeader = true := hl
  rw [owed_leader hl, owed_leader hl']
  by_cases h : cs = csId
  · subst h
    simp [setTokenOut]
  · simp [setTokenOut, h]

@[simp] theorem grantsOf_nil (cs : ComponentId) : grantsOf cs [] = 0 := rfl

@[simp] theorem grantsOf_request (cs : ComponentId) :
    grantsOf cs [.tokenRequest csId] = 0 := rfl

@[simp] theorem grantsOf_grant (cs : ComponentId) (d : Orientation) :
    grantsOf cs [.tokenGrant csId d] = if cs = csId then 1 else 0 := by
  simp [grantsOf, List.countP_cons, SyncMsg.isGrant, eq_comm]

theorem requestCriticalSection_identity (self : Sync) (csId : ComponentId) :
    self.SameIdentity (self.requestCriticalSection csId).1 := by
  unfold requestCriticalSection leaderRequest followerRequest
  split
  · split
    · split
      · exact ⟨rfl, rfl, rfl⟩
      · exact .refl self
    · exact ⟨rfl, rfl, rfl⟩
  · exact .refl self

theorem release_identity (self : Sync) (csId : ComponentId) :
    self.SameIdentity (self.release csId).1 := by
  unfold release leaderRelease followerRelease
  split
  · split
    · exact ⟨rfl, rfl, rfl⟩
    · exact ⟨rfl, rfl, rfl⟩
  · exact .refl self

@[simp] theorem requestCriticalSection_isInside (self : Sync) (csId : ComponentId) :
    (self.requestCriticalSection csId).1.isInside = self.isInside := by
  unfold requestCriticalSection leaderRequest followerRequest
  split
  · split
    · split <;> rfl
    · rfl
  · rfl

@[simp] theorem release_isInside (self : Sync) (csId : ComponentId) :
    (self.release csId).1.isInside = self.isInside := by
  unfold release leaderRelease followerRelease
  split
  · split <;> rfl
  · rfl

theorem onTokenGrant_cases (self : Sync) (csId : ComponentId) (d : Orientation) :
    (d ≠ self.orientation ∧ self.onTokenGrant csId d = ⟨self, [], none⟩) ∨
      (d = self.orientation ∧
        self.onTokenGrant csId d = ⟨self.setInside csId true, [], some csId⟩) ∨
      (d = self.orientation ∧
        self.onTokenGrant csId d = ⟨(self.release csId).1, (self.release csId).2, none⟩) := by
  unfold onTokenGrant
  by_cases hd : d = self.orientation
  · rw [if_neg (not_not.mpr hd)]
    split
    · exact .inr (.inl ⟨hd, rfl⟩)
    · exact .inr (.inr ⟨hd, rfl⟩)
  · exact .inl ⟨hd, if_pos hd⟩

theorem onTokenRequest_cases (self : Sync) (csId : ComponentId) :
    self.onTokenRequest csId =
        ⟨(self.requestCriticalSection csId).1, (self.requestCriticalSection csId).2, none⟩ ∨
      self.onTokenRequest csId = ⟨self, [], none⟩ := by
  unfold onTokenRequest
  split
  · exact .inl rfl
  · exact .inr rfl

theorem onSiblingMessage_identity (self : Sync) (msg : SyncMsg) :
    self.SameIdentity (self.onSiblingMessage msg).sync := by
  cases msg with
  | tokenGrant csId d =>
      rcases onTokenGrant_cases self csId d with ⟨-, h⟩ | ⟨-, h⟩ | ⟨-, h⟩ <;>
        rw [onSiblingMessage, h]
      · exact .refl self
      · exact ⟨rfl, rfl, rfl⟩
      · exact release_identity self csId
  | tokenRequest csId =>
      rcases onTokenRequest_cases self csId with h | h <;> rw [onSiblingMessage, h]
      · exact requestCriticalSection_identity self csId
      · exact .refl self

/-- A board is inside the component's callback exactly if it was or starts it now. -/
theorem onSiblingMessage_isInside (self : Sync) (msg : SyncMsg) (cs : ComponentId) :
    (self.onSiblingMessage msg).sync.isInside cs =
      (self.isInside cs || decide ((self.onSiblingMessage msg).callback = some cs)) := by
  cases msg with
  | tokenGrant csId d =>
      rcases onTokenGrant_cases self csId d with ⟨-, h⟩ | ⟨-, h⟩ | ⟨-, h⟩ <;>
        rw [onSiblingMessage, h]
      · simp
      · by_cases hc : cs = csId
        · subst hc
          simp [setInside]
        · have hc' : csId ≠ cs := fun h => hc h.symm
          simp [setInside, hc, hc']
      · simp
  | tokenRequest csId =>
      rcases onTokenRequest_cases self csId with h | h <;> rw [onSiblingMessage, h] <;> simp

theorem onSiblingMessage_callback {self : Sync} {msg : SyncMsg} {csId : ComponentId}
    (h : (self.onSiblingMessage msg).callback = some csId) :
    msg = .tokenGrant csId self.orientation ∧
      self.onSiblingMessage msg = ⟨self.setInside csId true, [], some csId⟩ := by
  cases msg with
  | tokenGrant c d =>
      rcases onTokenGrant_cases self c d with ⟨-, hturn⟩ | ⟨hd, hturn⟩ | ⟨-, hturn⟩ <;>
        rw [onSiblingMessage, hturn] at h <;> cases h
      exact ⟨by rw [hd], hturn⟩
  | tokenRequest c =>
      rcases onTokenRequest_cases self c with hturn | hturn <;>
        rw [onSiblingMessage, hturn] at h <;> cases h

/-- A request only ever touches the leader's flag, which turns on with the grant it sends. -/
theorem requestCriticalSection_balanced (self : Sync) (csId cs : ComponentId) :
    self.Balanced cs 0 (self.requestCriticalSection csId).1
      (self.requestCriticalSection csId).2 := by
  unfold requestCriticalSection
  by_cases hl : self.isLeader = true
  · rw [if_pos hl]
    unfold leaderRequest
    by_cases hout : self.leader.isTokenOut csId = true
    · rw [if_pos hout]
      split
      · simp [Balanced]
      · simp [Balanced]
    · rw [if_neg hout]
      by_cases hcs : cs = csId
      · subst hcs
        simp [Balanced, issueNewToken, owed_setTokenOut hl, owed_leader hl, hout, Nat.add_comm]
      · simp [Balanced, issueNewToken, owed_setTokenOut hl, hcs]
  · rw [if_neg hl]
    simp [Balanced, followerRequest]

/-- A release puts the token it had back on the ring, or the leader takes it in. -/
theorem release_balanced (self : Sync) (csId cs : ComponentId)
    (out : cs = csId → self.isLeader = true → self.leader.isTokenOut csId = true) :
    self.Balanced cs (if cs = csId then 1 else 0) (self.release csId).1
      (self.release csId).2 := by
  unfold release
  by_cases hl : self.isLeader = true
  · rw [if_pos hl]
    have hl' : ∀ n, (self.setRequestedTokens csId n).isLeader = true := fun _ => hl
    unfold leaderRelease
    by_cases hreq : self.leader.requestedTokens csId > 0
    · simp only [if_pos hreq]
      by_cases hcs : cs = csId
      · subst hcs
        simp [Balanced, issueNewToken, owed_setTokenOut (hl' _), owed_leader hl, out rfl hl]
      · simp [Balanced, issueNewToken, owed_setTokenOut (hl' _), hcs]
    · simp only [if_neg hreq]
      by_cases hcs : cs = csId
      · subst hcs
        simp [Balanced, owed_setTokenOut hl, owed_leader hl, out rfl hl, Nat.add_comm]
      · simp [Balanced, owed_setTokenOut hl, hcs]
  · rw [if_neg hl]
    simp [Balanced, followerRelease, Nat.add_assoc]

/-- Leaving the callback keeps the balance: the token the board held is released. -/
theorem leaveCriticalSection_balanced (self : Sync) (csId cs : ComponentId)
    (inside : cs = csId → self.isInside csId = true)
    (out : cs = csId → self.isLeader = true → self.leader.isTokenOut csId = true) :
    self.Balanced cs 0 (self.leaveCriticalSection csId).1 (self.leaveCriticalSection csId).2 := by
  have h := release_balanced (self.setInside csId false) csId cs out
  simp only [Balanced, owed_setInside, held_setInside] at h
  simp only [Balanced, leaveCriticalSection]
  by_cases hcs : cs = csId
  · subst hcs
    have hheld : self.held cs = 1 := by simp [held, inside rfl]
    simp only [if_true, Bool.false_eq_true, if_false] at h
    omega
  · simp only [if_neg hcs] at h
    omega

/-- The token a sibling message hands to the board. -/
def taken (self : Sync) (cs : ComponentId) (msg : SyncMsg) : Nat :=
  if msg = .tokenGrant cs self.orientation then 1 else 0

@[simp] theorem taken_grant (self : Sync) (cs csId : ComponentId) :
    self.taken cs (.tokenGrant csId self.orientation) = if cs = csId then 1 else 0 := by
  simp [taken, eq_comm]

/-- A sibling message keeps the balance: a token that is taken is held or passed on. -/
theorem onSiblingMessage_balanced (self : Sync) (msg : SyncMsg) (cs : ComponentId)
    (idle : msg = .tokenGrant cs self.orientation → self.isInside cs = false)
    (out : msg = .tokenGrant cs self.orientation → self.isLeader = true →
      self.leader.isTokenOut cs = true) :
    self.Balanced cs (self.taken cs msg) (self.onSiblingMessage msg).sync
      (self.onSiblingMessage msg).sent := by
  cases msg with
  | tokenRequest csId =>
      have htaken : self.taken cs (.tokenRequest csId) = 0 := by simp [taken]
      rw [htaken]
      rcases onTokenRequest_cases self csId with h | h <;> rw [onSiblingMessage, h]
      · exact requestCriticalSection_balanced self csId cs
      · simp [Balanced]
  | tokenGrant csId d =>
      rcases onTokenGrant_cases self csId d with ⟨hd, h⟩ | ⟨hd, h⟩ | ⟨hd, h⟩ <;>
        rw [onSiblingMessage, h]
      · have htaken : self.taken cs (.tokenGrant csId d) = 0 := by simp [taken, hd]
        rw [htaken]
        simp [Balanced]
      · subst hd
        simp only [Balanced, taken_grant, grantsOf_nil, held_setInside, owed_setInside]
        by_cases hcs : cs = csId
        · subst hcs
          have hheld : self.held cs = 0 := by simp [held, idle rfl]
          simp only [if_true, hheld]
        · simp only [if_neg hcs]
      · subst hd
        rw [taken_grant]
        exact release_balanced self csId cs fun hcs => by subst hcs; exact out rfl

/-- Every grant a board sends is addressed to another board. -/
def SendsAway (self : Sync) (sent : List SyncMsg) : Prop :=
  ∀ cs d, SyncMsg.tokenGrant cs d ∈ sent → d ≠ self.orientation

theorem requestCriticalSection_away (hfirst : self.leader.firstDeviceToGetToken = .north)
    (csId : ComponentId) : self.SendsAway (self.requestCriticalSection csId).2 := by
  intro cs d hd
  unfold requestCriticalSection leaderRequest at hd
  split at hd
  · next hl =>
    have hl' : self.orientation = .center := by simpa [isLeader] using hl
    split at hd
    · split at hd <;> simp at hd
    · simp only [issueNewToken, List.mem_singleton, SyncMsg.tokenGrant.injEq] at hd
      rw [hd.2, hfirst, hl']
      decide
  · simp [followerRequest] at hd

theorem release_away (hfirst : self.leader.firstDeviceToGetToken = .north)
    (csId : ComponentId) : self.SendsAway (self.release csId).2 := by
  intro cs d hd
  unfold release leaderRelease at hd
  split at hd
  · next hl =>
    have hl' : self.orientation = .center := by simpa [isLeader] using hl
    split at hd
    · simp only [issueNewToken, setRequestedTokens, List.mem_singleton,
        SyncMsg.tokenGrant.injEq] at hd
      rw [hd.2, hfirst, hl']
      decide
    · simp at hd
  · simp only [followerRelease, List.mem_singleton, SyncMsg.tokenGrant.injEq] at hd
    rw [hd.2]
    exact self.orientation.next_ne

theorem onSiblingMessage_away (hfirst : self.leader.firstDeviceToGetToken = .north)
    (msg : SyncMsg) : self.SendsAway (self.onSiblingMessage msg).sent := by
  cases msg with
  | tokenGrant csId d =>
      rcases onTokenGrant_cases self csId d with ⟨-, h⟩ | ⟨-, h⟩ | ⟨-, h⟩ <;>
        rw [onSiblingMessage, h]
      · simp [SendsAway]
      · simp [SendsAway]
      · exact release_away hfirst csId
  | tokenRequest csId =>
      rcases onTokenRequest_cases self csId with h | h <;> rw [onSiblingMessage, h]
      · exact requestCriticalSection_away hfirst csId
      · simp [SendsAway]

/-! ## Requests are kept -/

/-- A request at the leader leaves the counter positive or sends a token to the first
board, also when the counter is saturated. -/
theorem leaderRequest_recorded (self : Sync) (csId : ComponentId) :
    0 < (self.leaderRequest csId).1.leader.requestedTokens csId ∨
      .tokenGrant csId self.leader.firstDeviceToGetToken ∈ (self.leaderRequest csId).2 := by
  unfold leaderRequest
  split
  · left
    split
    · next hlt =>
      simp only [setRequestedTokens, Function.update_self]
      rw [UInt8.lt_iff_toNat_lt] at hlt ⊢
      rw [UInt8.toNat_add]
      have h255 : (255 : UInt8).toNat = 255 := rfl
      have hone : (1 : UInt8).toNat = 1 := rfl
      have hzero : (0 : UInt8).toNat = 0 := rfl
      omega
    · next hlt =>
      have hge : 255 ≤ self.leader.requestedTokens csId := UInt8.not_lt.mp hlt
      rw [UInt8.le_iff_toNat_le] at hge
      change 0 < self.leader.requestedTokens csId
      rw [UInt8.lt_iff_toNat_lt]
      have h255 : (255 : UInt8).toNat = 255 := rfl
      have hzero : (0 : UInt8).toNat = 0 := rfl
      omega
  · right
    simp [issueNewToken]

theorem leaderRequest_other {cs csId : ComponentId} (h : cs ≠ csId) (self : Sync) :
    (self.leaderRequest csId).1.leader.requestedTokens cs = self.leader.requestedTokens cs := by
  unfold leaderRequest
  split
  · split
    · simp [setRequestedTokens, h]
    · rfl
  · rfl

theorem leaderRelease_other {cs csId : ComponentId} (h : cs ≠ csId) (self : Sync) :
    (self.leaderRelease csId).1.leader.requestedTokens cs = self.leader.requestedTokens cs := by
  unfold leaderRelease
  split
  · simp [issueNewToken, setTokenOut, setRequestedTokens, h]
  · rfl

theorem leaderRelease_recorded (self : Sync) (csId : ComponentId) :
    self.leader.requestedTokens csId = 0 ∨
      .tokenGrant csId self.leader.firstDeviceToGetToken ∈ (self.leaderRelease csId).2 := by
  unfold leaderRelease
  split
  · right
    simp [issueNewToken, setRequestedTokens]
  · next h =>
    left
    rw [gt_iff_lt, UInt8.lt_iff_toNat_lt] at h
    apply UInt8.toNat.inj
    have hzero : (0 : UInt8).toNat = 0 := rfl
    omega

end Sync

end I4A
