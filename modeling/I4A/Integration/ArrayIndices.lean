import I4A.Integration.Components
import Mathlib.Tactic.IntervalCases

/-! # Bytes of a message that select an entry

Which bytes of a message the components of a board use as indices, and what they do with one that
names no entry.
-/

namespace I4A

namespace Components

open Checked RingShare

/-- A byte of a message, and the number of entries of the array it selects from. -/
structure Selector where
  position : Nat
  size : Nat
  deriving DecidableEq

/-- The bytes of a component's message that its handler uses as indices. -/
def bodySelectors : Nat → List UInt8 → List Selector
  | 0, [kind, _, _] =>
      if kind = 1 then [⟨1, rsLastComponentId⟩]
      else if kind = 2 then [⟨2, rsLastComponentId⟩]
      else []
  | 2, _ :: _ => [⟨0, rsLastComponentId⟩]
  | 3, body =>
      if body.length = ChannelManager.sizeofCmMessage then [⟨0, ChannelManager.maxPeers⟩] else []
  | 5, body =>
      if InfoManager.sizeofImRingPacket ≤ body.length then
        [⟨InfoManager.orientationOffset, InfoManager.maxOrientations⟩]
      else []
  | 6, [_, _] => [⟨0, maxDevices⟩]
  | _, _ => []

/-- The bytes of a message that are used as indices: the first selects the component. -/
def selectors : List UInt8 → List Selector
  | [] => []
  | component :: body =>
      ⟨0, rsMaxComponents⟩ ::
        (bodySelectors component.toNat body).map fun s => ⟨s.position + 1, s.size⟩

namespace Board

variable (b : Board)

/-- Every access of the handlers is inside its array, and a message with a byte that names no entry
is ignored, or handled as if the byte named the last. -/
structure HandlesIndices (msg : List UInt8) (len : UInt16) : Prop where
  safe : Safe (b.onSiblingMessage msg len)
  outOfRange : ∀ s ∈ selectors (msg.take len.toNat), s.size ≤ (msg.getD s.position 0).toNat →
    b.onSiblingMessage msg len = .ok (b, []) ∨
      b.onSiblingMessage msg len =
        b.onSiblingMessage (msg.set s.position (UInt8.ofNat (s.size - 1))) len

/-- The message is for the lock, which will use an id in it that is no component. -/
def UsesNoComponent (msg : List UInt8) : Prop :=
  ∃ body, msg = 0 :: body ∧ b.sync.UsesNoComponent body

end Board

/-! ## shared_state.c -/

theorem ssOnSiblingMessage_ignored (data : SharedData) {msg : List UInt8} (len : UInt16)
    (h : rsLastComponentId ≤ (msg.getD 0 0).toNat) :
    ssOnSiblingMessage data msg len = .ok data :=
  if_pos h

theorem ssOnSiblingMessage_safe (data : SharedData) (msg : List UInt8) (len : UInt16) :
    Safe (ssOnSiblingMessage data msg len) := by
  by_cases h : rsLastComponentId ≤ (msg.getD 0 0).toNat
  · rw [ssOnSiblingMessage_ignored data len h]
    exact safe_ok _
  · have hlt := Nat.lt_of_not_le h
    unfold ssOnSiblingMessage
    rw [if_neg h, load_of_lt data hlt]
    simp only [bind, Except.bind]
    cases data[(msg.getD 0 0).toNat] with
    | none => exact safe_ok _
    | some entry =>
        dsimp only
        split
        · exact safe_ok _
        · rw [store_of_lt data hlt]
          exact safe_ok _

/-! ## routing.c -/

theorem dispatchFrom_ok (last : Nat) (queue : Vector (List UInt8) maxSiblEventQueued)
    {indices : List Nat} (h : ∀ i ∈ indices, i < maxSiblEventQueued) :
    ∃ dispatched, dispatchFrom last queue indices = .ok dispatched := by
  induction indices with
  | nil => exact ⟨_, rfl⟩
  | cons i rest ih =>
      obtain ⟨dispatched, hrest⟩ := ih fun j hj => h j (List.mem_cons_of_mem i hj)
      unfold dispatchFrom
      rw [load_of_lt queue (h i List.mem_cons_self), hrest]
      simp only [bind, Except.bind]
      split
      · exact ⟨_, rfl⟩
      · exact ⟨_, rfl⟩

theorem EventQueue.dispatch_ok (events : EventQueue) (last : Nat) :
    ∃ dispatched, events.dispatch last = .ok dispatched :=
  dispatchFrom_ok last events.queue fun _ hi =>
    Nat.lt_of_lt_of_le (List.mem_range.mp hi) events.bound

theorem onCriticalSection_ok (queues : EventQueues) :
    ∃ called, onCriticalSection queues = .ok called := by
  obtain ⟨siblings, hsiblings⟩ := queues.internal.dispatch_ok 5
  obtain ⟨peers, hpeers⟩ := queues.external.dispatch_ok 6
  unfold onCriticalSection
  rw [hsiblings, hpeers]
  simp only [bind, Except.bind]
  split
  · split
    · exact ⟨_, rfl⟩
    · exact ⟨_, rfl⟩
  · exact ⟨_, rfl⟩

theorem rtOnSiblingMessage_ok (queues : EventQueues) (msg : List UInt8) :
    ∃ queued, rtOnSiblingMessage queues msg = .ok queued := by
  unfold rtOnSiblingMessage
  by_cases h : maxSiblEventQueued ≤ queues.internal.count
  · exact ⟨none, dif_pos h⟩
  · rw [dif_neg h]
    split
    · exact ⟨none, rfl⟩
    · rw [store_of_lt _ (Nat.lt_of_not_le h)]
      exact ⟨_, rfl⟩

end Components

/-! ## channel_manager.c and priority_manager.c -/

namespace ChannelManager

open Checked

theorem onSiblingMessage_safe (cm : State) (networkProvided : Bool) (msg : List UInt8) :
    Safe (onSiblingMessage cm networkProvided msg) := by
  have hstore := store_of_lt cm.blockedNetworks
    (clamp_lt (by decide : 0 < maxPeers) (CmMessage.decode msg).orientation.toNat)
    (uuidEntry (CmMessage.decode msg).networkName)
  have hload := load_of_lt (CmMessage.decode msg).channels cm.orientation.isLt
  unfold onSiblingMessage
  split
  · exact safe_ok _
  · dsimp only
    rw [hstore, hload]
    cases networkProvided with
    | true => exact safe_ok _
    | false => exact safe_ok _

/-- An orientation of no forwarder is taken for the last. -/
theorem onSiblingMessage_clamped (cm : State) (networkProvided : Bool) {orientation : UInt8}
    (h : maxPeers ≤ orientation.toNat) (body : List UInt8) :
    onSiblingMessage cm networkProvided (orientation :: body) =
      onSiblingMessage cm networkProvided (UInt8.ofNat (maxPeers - 1) :: body) := by
  have hclamp : clamp maxPeers orientation.toNat = maxPeers - 1 := if_pos h
  have hrest : ∀ k, (orientation :: body).getD (1 + k) 0 =
      (UInt8.ofNat (maxPeers - 1) :: body).getD (1 + k) 0 := by
    intro k
    rw [Nat.add_comm, List.getD_cons_succ, List.getD_cons_succ]
  have hchannels : (CmMessage.decode (orientation :: body)).channels =
      (CmMessage.decode (UInt8.ofNat (maxPeers - 1) :: body)).channels := by
    simp only [CmMessage.decode, hrest]
  have hname : (CmMessage.decode (orientation :: body)).networkName =
      (CmMessage.decode (UInt8.ofNat (maxPeers - 1) :: body)).networkName := by
    simp only [CmMessage.decode, Nat.add_assoc, hrest]
  have horientation : (CmMessage.decode (orientation :: body)).orientation = orientation := rfl
  unfold onSiblingMessage
  simp only [List.length_cons, hchannels, hname, horientation, hclamp]
  rfl

end ChannelManager

namespace PriorityManager

open Checked

theorem onSiblingMessage_safe (devicesRssi : DevicesRssi) (msg : List UInt8) :
    Safe (onSiblingMessage devicesRssi msg) := by
  unfold onSiblingMessage
  split
  · rw [store_of_lt _ (clamp_lt (by decide) _)]
    exact safe_ok _
  · exact safe_ok _

theorem onSiblingMessage_clamped (devicesRssi : DevicesRssi) {orientation : UInt8}
    (h : maxDevices ≤ orientation.toNat) (rssi : UInt8) :
    onSiblingMessage devicesRssi [orientation, rssi] =
      onSiblingMessage devicesRssi [UInt8.ofNat (maxDevices - 1), rssi] := by
  have hclamp : clamp maxDevices orientation.toNat = maxDevices - 1 := if_pos h
  unfold onSiblingMessage
  dsimp only
  rw [hclamp]
  rfl

end PriorityManager

/-! ## The board -/

namespace Components

open Checked RingShare

namespace Board

variable (b : Board)

theorem safe_onSync_iff (msg : List UInt8) :
    Safe (b.onSync msg) ↔ ¬ b.sync.UsesNoComponent msg := by
  obtain ⟨called, hcalled⟩ := onCriticalSection_ok b.events
  rw [← b.sync.onSiblingMessage_safe_iff hcalled msg]
  unfold onSync
  rw [safe_bind_iff]
  constructor
  · rintro ⟨done, h, -⟩
    exact ⟨done, h⟩
  · rintro ⟨done, h⟩
    exact ⟨done, h, safe_ok _⟩

theorem safe_onRouting (msg : List UInt8) : Safe (b.onRouting msg) := by
  obtain ⟨queued, hqueued⟩ := rtOnSiblingMessage_ok b.events msg
  unfold onRouting
  rw [hqueued]
  cases queued with
  | none => exact safe_ok _
  | some events =>
      obtain ⟨arrays, hrequest, -⟩ := b.sync.requestCriticalSection_refines .routing
      simp only [bind, Except.bind, hrequest]
      exact safe_ok _

theorem safe_onSharedState (msg : List UInt8) (len : UInt16) :
    Safe (b.onSharedState msg len) := by
  obtain ⟨data, h⟩ := ssOnSiblingMessage_safe b.sharedData msg len
  unfold onSharedState
  rw [h]
  exact safe_ok _

theorem safe_onChannelManager (msg : List UInt8) : Safe (b.onChannelManager msg) := by
  obtain ⟨done, h⟩ := ChannelManager.onSiblingMessage_safe b.cm b.networkProvided msg
  unfold onChannelManager
  rw [h]
  exact safe_ok _

theorem safe_onInfoManager (msg : List UInt8) : Safe (b.onInfoManager msg) := by
  obtain ⟨ring, h⟩ := InfoManager.onSiblingMessage_safe b.ring msg
  unfold onInfoManager
  rw [h]
  exact safe_ok _

theorem safe_onPriorityManager (msg : List UInt8) : Safe (b.onPriorityManager msg) := by
  obtain ⟨devicesRssi, h⟩ := PriorityManager.onSiblingMessage_safe b.devicesRssi msg
  unfold onPriorityManager
  rw [h]
  exact safe_ok _

/-- The handler of a component, by its number. -/
def handler (component : Nat) (msg : List UInt8) (len : UInt16) : Handled :=
  match component with
  | 0 => b.onSync (msg.take len.toNat)
  | 1 => b.onRouting (msg.take len.toNat)
  | 2 => b.onSharedState msg len
  | 3 => b.onChannelManager (msg.take len.toNat)
  | 4 => b.onResetManager (msg.take len.toNat)
  | 5 => b.onInfoManager (msg.take len.toNat)
  | 6 => b.onPriorityManager (msg.take len.toNat)
  | _ => .ok (b, [])

theorem onSiblingMessage_eq (msg : List UInt8) {len : UInt16} (hlen : len ≠ 0) :
    b.onSiblingMessage msg len = b.handler (msg.getD 0 0).toNat (msg.drop 1) (len - 1) := by
  unfold onSiblingMessage rsOnSiblingMessage
  rw [if_neg hlen]
  generalize (msg.getD 0 0).toNat = id
  dsimp only
  by_cases h : rsMaxComponents ≤ id
  · obtain ⟨k, rfl⟩ := Nat.exists_eq_add_of_le' h
    rw [if_pos h]
    rfl
  · rw [if_neg h, load_of_lt b.components (Nat.lt_of_not_le h)]
    have hid : id < 10 := Nat.lt_of_not_le h
    interval_cases id <;> rfl

theorem handler_of_le {component : Nat} (h : rsLastComponentId ≤ component) (msg : List UInt8)
    (len : UInt16) : b.handler component msg len = .ok (b, []) := by
  obtain ⟨k, rfl⟩ := Nat.exists_eq_add_of_le' h
  rfl

/-- Only the lock's handler can leave an array. -/
theorem safe_handler_iff (component : Nat) (msg : List UInt8) (len : UInt16) :
    Safe (b.handler component msg len) ↔
      ¬ (component = 0 ∧ b.sync.UsesNoComponent (msg.take len.toNat)) := by
  by_cases hsync : component = 0
  · subst hsync
    rw [show b.handler 0 msg len = b.onSync (msg.take len.toNat) from rfl, b.safe_onSync_iff]
    simp
  · have hsafe : Safe (b.handler component msg len) := by
      by_cases h : rsLastComponentId ≤ component
      · rw [b.handler_of_le h]
        exact safe_ok _
      · have hlt : component < 7 := Nat.lt_of_not_le h
        interval_cases component
        case «0» => exact absurd rfl hsync
        case «1» => exact b.safe_onRouting _
        case «2» => exact b.safe_onSharedState _ _
        case «3» => exact b.safe_onChannelManager _
        case «4» => exact safe_ok _
        case «5» => exact b.safe_onInfoManager _
        case «6» => exact b.safe_onPriorityManager _
    exact ⟨fun _ hbad => hsync hbad.1, fun _ => hsafe⟩

/-! ## Bytes that name no entry -/

theorem onSync_ignored {body : List UInt8} (hgood : ¬ b.sync.UsesNoComponent body) {s : Selector}
    (hs : s ∈ bodySelectors 0 body) (h : s.size ≤ (body.getD s.position 0).toNat) :
    b.onSync body = .ok (b, []) := by
  have hsync : b.sync.onSiblingMessage (onCriticalSection b.events) body =
      .ok (b.sync, none, []) := by
    rcases body with _ | ⟨kind, _ | ⟨first, _ | ⟨second, _ | ⟨fourth, rest⟩⟩⟩⟩
    case cons.cons.cons.nil =>
        simp only [bodySelectors] at hs
        by_cases hrequest : kind = 1
        · rw [if_pos hrequest, List.mem_singleton] at hs
          subst hs hrequest
          exact b.sync.onTokenRequest_follower fun hlead => hgood (.inl ⟨rfl, hlead, h⟩)
        · rw [if_neg hrequest] at hs
          by_cases hgrant : kind = 2
          · rw [if_pos hgrant, List.mem_singleton] at hs
            subst hs hgrant
            exact b.sync.onTokenGrant_elsewhere fun hdest => hgood (.inr ⟨rfl, hdest, h⟩)
          · rw [if_neg hgrant] at hs
            exact absurd hs List.not_mem_nil
    all_goals exact absurd hs List.not_mem_nil
  unfold onSync
  rw [hsync]
  rfl

theorem onChannelManager_clamped {body : List UInt8} {s : Selector}
    (hs : s ∈ bodySelectors 3 body) (h : s.size ≤ (body.getD s.position 0).toNat) :
    b.onChannelManager body =
      b.onChannelManager (body.set s.position (UInt8.ofNat (s.size - 1))) := by
  simp only [bodySelectors] at hs
  split at hs
  · rw [List.mem_singleton] at hs
    subst hs
    cases body with
    | nil => contradiction
    | cons orientation rest =>
        have horientation : ChannelManager.maxPeers ≤ orientation.toNat := h
        unfold onChannelManager
        rw [ChannelManager.onSiblingMessage_clamped b.cm b.networkProvided horientation rest]
        rfl
  · exact absurd hs List.not_mem_nil

theorem onInfoManager_ignored {body : List UInt8} {s : Selector}
    (hs : s ∈ bodySelectors 5 body) (h : s.size ≤ (body.getD s.position 0).toNat) :
    b.onInfoManager body = .ok (b, []) := by
  simp only [bodySelectors] at hs
  split at hs
  · rw [List.mem_singleton] at hs
    subst hs
    unfold onInfoManager
    rw [InfoManager.onSiblingMessage_ignored b.ring h]
    rfl
  · exact absurd hs List.not_mem_nil

theorem onPriorityManager_clamped {body : List UInt8} {s : Selector}
    (hs : s ∈ bodySelectors 6 body) (h : s.size ≤ (body.getD s.position 0).toNat) :
    b.onPriorityManager body =
      b.onPriorityManager (body.set s.position (UInt8.ofNat (s.size - 1))) := by
  rcases body with _ | ⟨orientation, _ | ⟨rssi, _ | ⟨third, rest⟩⟩⟩
  case cons.cons.nil =>
      simp only [bodySelectors, List.mem_singleton] at hs
      subst hs
      have horientation : maxDevices ≤ orientation.toNat := h
      unfold onPriorityManager
      rw [PriorityManager.onSiblingMessage_clamped b.devicesRssi horientation rssi]
      rfl
  all_goals exact absurd hs List.not_mem_nil

theorem onSharedState_ignored {msg : List UInt8} {len : UInt16} {s : Selector}
    (hs : s ∈ bodySelectors 2 (msg.take len.toNat))
    (h : s.size ≤ (msg.getD s.position 0).toNat) : b.onSharedState msg len = .ok (b, []) := by
  have hposition : s = ⟨0, rsLastComponentId⟩ := by
    revert hs
    cases msg.take len.toNat with
    | nil => exact fun hs => absurd hs List.not_mem_nil
    | cons component body => exact List.mem_singleton.mp
  subst hposition
  unfold onSharedState
  rw [ssOnSiblingMessage_ignored b.sharedData len h]
  rfl

/-- An index lies in its message. -/
theorem position_lt {component : Nat} {body : List UInt8} {s : Selector}
    (hs : s ∈ bodySelectors component body) : s.position < body.length := by
  unfold bodySelectors at hs
  split at hs
  case h_1 =>
      split at hs
      · rw [List.mem_singleton.mp hs]
        exact Nat.lt_succ_of_lt (Nat.lt_succ_self 1)
      · split at hs
        · rw [List.mem_singleton.mp hs]
          exact Nat.lt_succ_self 2
        · exact absurd hs List.not_mem_nil
  case h_2 =>
      rw [List.mem_singleton.mp hs]
      exact Nat.succ_pos _
  case h_3 =>
      split at hs
      · rename_i hlength
        rw [List.mem_singleton.mp hs, hlength]
        decide
      · exact absurd hs List.not_mem_nil
  case h_4 =>
      split at hs
      · rename_i hlength
        rw [List.mem_singleton.mp hs]
        exact Nat.lt_of_lt_of_le (by decide) hlength
      · exact absurd hs List.not_mem_nil
  case h_5 =>
      rw [List.mem_singleton.mp hs]
      exact Nat.succ_pos _
  case h_6 => exact absurd hs List.not_mem_nil

/-- A handler that stays inside its arrays ignores an index out of range, or takes it for the
last. -/
theorem handler_outOfRange {component : Nat} {msg : List UInt8} {len : UInt16}
    (hgood : ¬ (component = 0 ∧ b.sync.UsesNoComponent (msg.take len.toNat))) {s : Selector}
    (hs : s ∈ bodySelectors component (msg.take len.toNat))
    (h : s.size ≤ (msg.getD s.position 0).toNat) :
    b.handler component msg len = .ok (b, []) ∨
      b.handler component msg len =
        b.handler component (msg.set s.position (UInt8.ofNat (s.size - 1))) len := by
  have hlt : s.position < len.toNat :=
    Nat.lt_of_lt_of_le (position_lt hs) (List.length_take_le _ _)
  have hbyte : (msg.take len.toNat).getD s.position 0 = msg.getD s.position 0 := by
    rw [List.getD_eq_getElem?_getD, List.getD_eq_getElem?_getD, List.getElem?_take_of_lt hlt]
  rw [← hbyte] at h
  have hset : (msg.set s.position (UInt8.ofNat (s.size - 1))).take len.toNat =
      (msg.take len.toNat).set s.position (UInt8.ofNat (s.size - 1)) := List.take_set
  by_cases hid : rsLastComponentId ≤ component
  · exact .inl (b.handler_of_le hid msg len)
  · have hlast : component < 7 := Nat.lt_of_not_le hid
    interval_cases component
    case «0» => exact .inl (b.onSync_ignored (fun hbad => hgood ⟨rfl, hbad⟩) hs h)
    case «1» => exact absurd hs List.not_mem_nil
    case «2» => exact .inl (b.onSharedState_ignored hs (hbyte ▸ h))
    case «3» =>
      right
      unfold handler
      rw [hset]
      exact b.onChannelManager_clamped hs h
    case «4» => exact absurd hs List.not_mem_nil
    case «5» => exact .inl (b.onInfoManager_ignored hs h)
    case «6» =>
      right
      unfold handler
      rw [hset]
      exact b.onPriorityManager_clamped hs h

theorem take_message (component : UInt8) (rest : List UInt8) {len : UInt16} (hlen : len ≠ 0) :
    (component :: rest).take len.toNat = component :: rest.take (len - 1).toNat := by
  have hpos : len.toNat ≠ 0 := fun h => hlen (UInt16.toNat_inj.mp h)
  have hsub : len.toNat = (len - 1).toNat + 1 := by
    rw [UInt16.toNat_sub_of_le len 1 (UInt16.le_iff_toNat_le.mpr (Nat.pos_of_ne_zero hpos))]
    exact (Nat.succ_pred hpos).symm
  rw [hsub, List.take_succ_cons]

theorem handlesIndices_cons_iff (component : UInt8) (rest : List UInt8) {len : UInt16}
    (hlen : len ≠ 0) :
    b.HandlesIndices (component :: rest) len ↔
      ¬ (component.toNat = 0 ∧ b.sync.UsesNoComponent (rest.take (len - 1).toNat)) := by
  have hcons : ∀ body, b.onSiblingMessage (component :: body) len =
      b.handler component.toNat body (len - 1) :=
    fun body => b.onSiblingMessage_eq (component :: body) hlen
  constructor
  · intro h
    have hsafe := h.safe
    rwa [hcons, b.safe_handler_iff] at hsafe
  · intro hgood
    refine ⟨by rwa [hcons, b.safe_handler_iff], fun s hs h => ?_⟩
    rw [take_message component rest hlen, selectors, List.mem_cons, List.mem_map] at hs
    rw [hcons]
    rcases hs with rfl | ⟨s, hs, rfl⟩
    · have hid : rsLastComponentId ≤ component.toNat := Nat.le_trans (by decide) h
      exact .inl (b.handler_of_le hid rest (len - 1))
    · rcases b.handler_outOfRange hgood hs h with hignored | hclamped
      · exact .inl hignored
      · right
        rw [hclamped, List.set_cons_succ, hcons]

/-- The handlers use no index outside an array unless the lock uses an id that is no component;
then they do. -/
theorem handlesIndices_iff (msg : List UInt8) (len : UInt16) :
    b.HandlesIndices msg len ↔ ¬ b.UsesNoComponent (msg.take len.toNat) := by
  by_cases hlen : len = 0
  · subst hlen
    constructor
    · rintro - ⟨body, hbody, -⟩
      cases hbody
    · intro _
      exact ⟨safe_ok _, fun s hs => absurd hs List.not_mem_nil⟩
  · cases msg with
    | nil =>
        rw [List.take_nil]
        constructor
        · rintro - ⟨body, hbody, -⟩
          cases hbody
        · intro _
          constructor
          · rw [b.onSiblingMessage_eq [] hlen, b.safe_handler_iff]
            rintro ⟨-, hbad⟩
            rw [List.drop_nil, List.take_nil] at hbad
            exact hbad
          · intro s hs
            rw [List.take_nil] at hs
            exact absurd hs List.not_mem_nil
    | cons component rest =>
        rw [b.handlesIndices_cons_iff component rest hlen, take_message component rest hlen]
        refine not_congr ⟨fun h => ?_, ?_⟩
        · have hzero : component = 0 := UInt8.toNat_inj.mp h.1
          exact ⟨_, by rw [hzero], h.2⟩
        · rintro ⟨body, hbody, hbad⟩
          obtain ⟨hzero, hrest⟩ := List.cons.inj hbody
          rw [hzero, hrest]
          exact ⟨rfl, hbad⟩

end Board

/-! ## A request for no component -/

/-- The routing table as `ss_watch` registers it, `sizeof(rt_routing_table_t)` bytes. -/
def watchedTable : WatchedData where
  object := List.replicate 200 0
  length := 200
  room := Nat.le_of_eq List.length_replicate.symm

/-- A board after `app_main`. -/
def startBoard (orientation : Orientation) (side : NodeOrientation) : Board where
  sync :=
    { orientation
      criticalSections := (Vector.replicate rsLastComponentId ⟨false, false⟩).set 1 ⟨true, false⟩
      firstDeviceToGetToken := .north
      requestedTokens := Vector.replicate rsLastComponentId 0
      isTokenOut := Vector.replicate rsLastComponentId false }
  events :=
    ⟨⟨Vector.replicate maxSiblEventQueued [], 0, Nat.zero_le _⟩,
      ⟨Vector.replicate maxSiblEventQueued [], 0, Nat.zero_le _⟩⟩
  sharedData := (Vector.replicate rsLastComponentId none).set 1 (some watchedTable)
  cm := ChannelManager.cmInit side
  rm := ⟨false, false, Vector.replicate 13 0, 0⟩
  ring := InfoManager.imInit
  devicesRssi := PriorityManager.pmResetPriorityList
  networkProvided := false
  now := 0

/-- The leader marks a token that does not exist as out, and a follower that is granted it looks
for its critical section. -/
theorem handlesIndices_fails_outside :
    ¬ (startBoard .center 4).HandlesIndices [0, 1, 7, 0] 4 ∧
      ¬ (startBoard .north 0).HandlesIndices [0, 2, 1, 7] 4 := by
  constructor
  · intro h
    exact not_safe_error ⟨7, rsLastComponentId⟩ h.safe
  · intro h
    exact not_safe_error ⟨7, rsLastComponentId⟩ h.safe

end Components

end I4A
