import I4A.Integration.ChannelManager
import I4A.Integration.InfoManager
import I4A.Integration.PriorityManager
import I4A.Integration.RingShare
import I4A.Routing.Dispatch
import I4A.Sync.Messages

/-! # The components a board registers

The handlers of `shared_state.c`, `routing.c` and `reset_manager.c` for messages of the ring, and
the table of `ring_share.c` with the handlers of all seven components. Every array that a message
selects an entry of is a vector, and every access to one is checked.
-/

namespace I4A

namespace Components

open Checked RingShare

/-! ## shared_state.c -/

/-- A `shared_data_t` whose pointer is set: the object behind it, at least as long as the entry
says. -/
structure WatchedData where
  object : List UInt8
  length : UInt8
  room : length.toNat ≤ object.length

/-- `data` of `shared_state_t`; `none` is an entry without a pointer. -/
abbrev SharedData := Vector (Option WatchedData) rsLastComponentId

theorem WatchedData.room_memcpy (entry : WatchedData) (src : List UInt8) :
    entry.length.toNat ≤ (memcpy entry.length.toNat entry.object src).1.length := by
  have hroom := entry.room
  rw [memcpy, List.length_append, List.length_drop]
  omega

/-- The `memcpy` of a refresh. -/
def WatchedData.refresh (entry : WatchedData) (src : List UInt8) : WatchedData where
  object := (memcpy entry.length.toNat entry.object src).1
  length := entry.length
  room := entry.room_memcpy src

/-- `on_sibling_message` of `shared_state.c`. It reads the component before it looks at the
length, so for an empty message the byte that lies behind. -/
def ssOnSiblingMessage (data : SharedData) (msg : List UInt8) (len : UInt16) :
    Checked SharedData :=
  let component := (msg.getD 0 0).toNat
  if rsLastComponentId ≤ component then .ok data
  else do
    let entry ← load data component
    match entry with
    | none => return data
    | some entry =>
        if (entry.length.toNat : Int) ≠ (len.toNat : Int) - 1 then return data
        else store data component (some (entry.refresh ((msg.drop 1).take entry.length.toNat)))

/-! ## routing.c -/

/-- `sizeof(rt_sibl_event_t)`. -/
def sizeofRtSiblEvent : Nat := 132

/-- `rt_internal_queue_t` and `rt_external_queue_t`, with the events as bytes. -/
structure EventQueue where
  queue : Vector (List UInt8) maxSiblEventQueued
  count : Nat
  bound : count ≤ maxSiblEventQueued

structure EventQueues where
  internal : EventQueue
  external : EventQueue

def EventQueue.clear (events : EventQueue) : EventQueue :=
  { events with count := 0, bound := Nat.zero_le _ }

/-- The loop over a queue: the events it dispatches, and whether it came to the end. An event
whose id is above `last` stops it. -/
def dispatchFrom (last : Nat) (queue : Vector (List UInt8) maxSiblEventQueued) :
    List Nat → Checked (List (List UInt8) × Bool)
  | [] => .ok ([], true)
  | i :: rest => do
      let event ← load queue i
      let eventId := (takeWord event).1.toNat
      if 1 ≤ eventId ∧ eventId ≤ last then
        let dispatched ← dispatchFrom last queue rest
        return (event :: dispatched.1, dispatched.2)
      else return ([], false)

def EventQueue.dispatch (events : EventQueue) (last : Nat) : Checked (List (List UInt8) × Bool) :=
  dispatchFrom last events.queue (List.range events.count)

/-- What a handler does outside its component. The handlers of the role are given the events they
are called with. -/
inductive Effect where
  | rsBroadcast (component : ComponentId) (msg : List UInt8)
  | onSibling (event : List UInt8)
  | onPeer (event : List UInt8)
  | nodeDisableSta
  | espRestart
  deriving DecidableEq

/-- `on_critical_section`. -/
def onCriticalSection (queues : EventQueues) : Checked (EventQueues × List Effect) := do
  let siblings ← queues.internal.dispatch 5
  if siblings.2 then
    let peers ← queues.external.dispatch 6
    let effects := siblings.1.map .onSibling ++ peers.1.map .onPeer
    if peers.2 then return (⟨queues.internal.clear, queues.external.clear⟩, effects)
    else return (queues, effects)
  else return (queues, siblings.1.map .onSibling)

/-- `on_sibling_message` of `routing.c` up to the request: the queue with the event, or `none`
where it is refused. -/
def rtOnSiblingMessage (queues : EventQueues) (msg : List UInt8) : Checked (Option EventQueues) :=
  if h : maxSiblEventQueued ≤ queues.internal.count then .ok none
  else if msg.length ≠ sizeofRtSiblEvent then .ok none
  else do
    let queue ← store queues.internal.queue queues.internal.count msg
    return some { queues with
      internal := ⟨queue, queues.internal.count + 1, Nat.lt_of_not_le h⟩ }

/-! ## reset_manager.c -/

/-- `RM_OPCODE_RESET`, `RM_OPCODE_STARTUP` and `sizeof(rm_startup_packet_t)`. -/
def rmOpcodeReset : UInt8 := 0xa5
def rmOpcodeStartup : UInt8 := 0xb6
def sizeofRmStartupPacket : Nat := 15

/-- The fields of `reset_manager_t` that a message changes. -/
structure ResetManager where
  isUp : Bool
  isRoot : Bool
  uuid : Vector UInt8 13
  lastResetTime : Int64
  deriving DecidableEq

theorem size_strncpy_uuid (body : List UInt8) : (strncpy 13 body).toArray.size = 13 :=
  length_strncpy 13 body

theorem uuidEnd_lt : 12 < 13 := by decide

/-- `rm_on_sibling_message` at the time `now`; the flag is the restart. -/
def rmOnSiblingMessage (rm : ResetManager) (now : Int64) : List UInt8 → ResetManager × Bool
  | [] => (rm, false)
  | opcode :: body =>
      if opcode = rmOpcodeReset then
        if rm.isUp then (rm, true) else ({ rm with lastResetTime := now }, false)
      else if opcode = rmOpcodeStartup then
        if (opcode :: body).length ≠ sizeofRmStartupPacket then (rm, false)
        else
          let uuid : Vector UInt8 13 := ⟨(strncpy 13 (body.take 13)).toArray, size_strncpy_uuid _⟩
          ({ rm with
            uuid := uuid.set 12 0 uuidEnd_lt
            isRoot := body.getD 13 0 ≠ 0
            isUp := true }, false)
      else (rm, false)

/-! ## The board -/

/-- The state of the seven components, and what their handlers ask the node for. -/
structure Board where
  sync : SyncArrays
  events : EventQueues
  sharedData : SharedData
  cm : ChannelManager.State
  rm : ResetManager
  ring : InfoManager.Ring
  devicesRssi : DevicesRssi
  networkProvided : Bool
  now : Int64

/-- What a handler leaves. -/
abbrev Handled := Checked (Board × List Effect)

namespace Board

variable (b : Board)

/-- `sync.c`, with the callback of `routing.c`. -/
def onSync (msg : List UInt8) : Handled := do
  let done ← b.sync.onSiblingMessage (onCriticalSection b.events) msg
  let called := done.2.1.getD (b.events, [])
  return ({ b with sync := done.1, events := called.1 },
    called.2 ++ done.2.2.map (.rsBroadcast .sync))

/-- `routing.c`: an event that is queued asks for the critical section. -/
def onRouting (msg : List UInt8) : Handled := do
  let queued ← rtOnSiblingMessage b.events msg
  match queued with
  | none => return (b, [])
  | some events =>
      let requested ← b.sync.requestCriticalSection ComponentId.routing.byte
      return ({ b with sync := requested.1, events }, requested.2.map (.rsBroadcast .sync))

def onSharedState (msg : List UInt8) (len : UInt16) : Handled := do
  let sharedData ← ssOnSiblingMessage b.sharedData msg len
  return ({ b with sharedData }, [])

def onChannelManager (msg : List UInt8) : Handled := do
  let done ← ChannelManager.onSiblingMessage b.cm b.networkProvided msg
  return ({ b with cm := done.1 }, if done.2 then [.nodeDisableSta] else [])

def onResetManager (msg : List UInt8) : Handled :=
  let done := rmOnSiblingMessage b.rm b.now msg
  .ok ({ b with rm := done.1 }, if done.2 then [.espRestart] else [])

def onInfoManager (msg : List UInt8) : Handled := do
  let ring ← InfoManager.onSiblingMessage b.ring msg
  return ({ b with ring }, [])

def onPriorityManager (msg : List UInt8) : Handled := do
  let devicesRssi ← PriorityManager.onSiblingMessage b.devicesRssi msg
  return ({ b with devicesRssi }, [])

/-- A callback that reads no more than its message. -/
def exactly (handler : List UInt8 → Handled) : RingCallback Handled :=
  fun msg len => handler (msg.take len.toNat)

/-- `components` of `ring_share_t` after `app_main`. -/
def components : Vector (Option (RingCallback Handled)) rsMaxComponents :=
  #v[some (exactly b.onSync), some (exactly b.onRouting), some b.onSharedState,
    some (exactly b.onChannelManager), some (exactly b.onResetManager),
    some (exactly b.onInfoManager), some (exactly b.onPriorityManager), none, none, none]

/-- `on_sibling_message` of `ring_share.c` with these components. `msg` is the memory that starts
with the message. -/
def onSiblingMessage (msg : List UInt8) (len : UInt16) : Handled := do
  let called ← rsOnSiblingMessage b.components msg len
  called.getD (.ok (b, []))

end Board

end Components

end I4A
