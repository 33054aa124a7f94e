import I4A.Core.Machine
import I4A.Routing.Dispatch
import I4A.Sync.Protocol

/-! # Five boards on the ring

`shared_state.c` and `ring_share.c` put together with the lock and the routing
module. A board's siblings task handles messages in the order of arrival; inside
a callback, or while it waits in `rs_broadcast`, it handles nothing. The other
tasks of the board request critical sections, queue peer events and tick. One
broadcast of a board is under way at a time: it reaches the four siblings one by
one before the next one starts.
-/

namespace I4A

/-- A message of `ring_share`, by component. -/
inductive RingMsg where
  | sync (msg : SyncMsg)
  | sharedState (component : ComponentId) (data : RtRoutingTable)
  | routing (event : RtSiblEvent)
  deriving DecidableEq

/-- `ss_refresh` and `rs_broadcast` in the outputs of the routing module. A refresh outside
the critical section is refused; the other outputs do not go to the ring. -/
def RtOutput.ringMsg (inside : Bool) : RtOutput → Option RingMsg
  | .sharedState table => if inside then some (.sharedState .routing table) else none
  | .sibling event => some (.routing event)
  | _ => none

/-- `on_sibling_message` of `shared_state.c`: only the routing table is watched. -/
def ssOnSiblingMessage (table : RtRoutingTable) (component : ComponentId)
    (data : RtRoutingTable) : RtRoutingTable :=
  if component = .routing then data else table

/-- A broadcast under way. -/
structure Sending where
  msg : RingMsg
  /-- The siblings it has not reached. -/
  left : List Orientation
  /-- Whether it is the siblings task that waits for it. -/
  own : Bool
  deriving DecidableEq

structure RingBoard where
  routing : Routing
  sync : Sync
  /-- Messages that arrived and are not handled. -/
  inbox : List RingMsg
  /-- What the siblings task still has to broadcast before it goes on. -/
  outbox : List RingMsg
  /-- What the other tasks want to broadcast. -/
  others : List RingMsg
  sending : Option Sending
  /-- The callback the siblings task is in. -/
  task : Option ComponentId

namespace RingBoard

variable (b : RingBoard)

abbrev table : RtRoutingTable := b.routing.routingTable

/-- The siblings task has nothing left to broadcast. -/
def flushed : Bool :=
  b.outbox.isEmpty && match b.sending with
    | some sending => !sending.own
    | none => true

/-- The siblings task is ready for its next message. -/
def idle : Bool := b.flushed && b.task.isNone

/-- `on_critical_section` as the callback that the lock has just entered. -/
def runCriticalSection : RingBoard :=
  let result := onCriticalSection b.routing
  { b with
    routing := result.board
    outbox := result.outputs.filterMap (RtOutput.ringMsg (b.sync.isInside .routing)) }

/-- A message of the lock. -/
def handleSync (msg : SyncMsg) : RingBoard :=
  let turn := b.sync.onSiblingMessage msg
  let b' := { b with sync := turn.sync, outbox := turn.sent.map .sync, task := turn.callback }
  if turn.callback = some .routing then b'.runCriticalSection else b'

/-- A sibling event: it is stored, and the siblings task asks for the lock. -/
def handleRouting (event : RtSiblEvent) : RingBoard :=
  let stored := onSiblingMessage b.routing event sizeofRtSiblEvent
  if stored.2 then
    let request := b.sync.requestCriticalSection .routing
    { b with routing := stored.1, sync := request.1, outbox := request.2.map .sync }
  else { b with routing := stored.1 }

/-- `on_sibling_message` of `ring_share.c` on the message in front. -/
def handle (msg : RingMsg) : RingBoard :=
  match msg with
  | .sync m => b.handleSync m
  | .sharedState component data =>
      { b with routing := { b.routing with
        routingTable := ssOnSiblingMessage b.table component data } }
  | .routing event => b.handleRouting event

/-- The callback returns. -/
def leave (csId : ComponentId) : RingBoard :=
  let released := b.sync.leaveCriticalSection csId
  { b with sync := released.1, outbox := released.2.map .sync, task := none }

/-- `sync_request_critical_section` from another task. -/
def request (csId : ComponentId) : RingBoard :=
  let result := b.sync.requestCriticalSection csId
  { b with sync := result.1, others := b.others ++ result.2.map .sync }

/-- A peer event arrived on another task. -/
def queuePeer (stored : Routing × Bool) : RingBoard :=
  let b' := { b with routing := stored.1 }
  if stored.2 then b'.request .routing else b'

/-- `rt_on_tick` on another task. -/
def tick (dtMs : BitVec 32) : RingBoard :=
  let ticked := rtOnTick b.routing.role dtMs
  let performed := RtAction.performAll b.table ticked.2
  { b with
    routing := { b.routing with role := ticked.1, routingTable := performed.1 }
    others := b.others ++
      performed.2.filterMap (RtOutput.ringMsg (b.sync.isInside .routing)) }

def startSending (src : Orientation) (msg : RingMsg) (own : Bool) : RingBoard :=
  { b with sending := some ⟨msg, src.siblings, own⟩ }

/-- The broadcast under way has reached `dst`. -/
def reached (sending : Sending) (dst : Orientation) : RingBoard :=
  let left := sending.left.filter (· ≠ dst)
  { b with sending := if left = [] then none else some { sending with left := left } }

end RingBoard

inductive SharedLabel where
  /-- The siblings task, or another task, starts its next broadcast. -/
  | sendOwn (b : Orientation)
  | sendOther (b : Orientation) (msg : RingMsg)
  /-- The broadcast under way from `b` reaches `dst`. -/
  | arrive (b dst : Orientation)
  /-- The siblings task handles the message in front. -/
  | handle (b : Orientation)
  | leave (b : Orientation)
  | request (b : Orientation) (csId : ComponentId)
  | peerMessage (b : Orientation) (event : RtPeerEvent) (len : Nat)
  | peerConnected (b : Orientation) (network : Network)
  | peerLost (b : Orientation) (network : Network)
  | tick (b : Orientation) (dtMs : BitVec 32)

structure SharedRing where
  boards : Orientation → RingBoard
  /-- History: the table as left by the last board that modified it. -/
  lastWritten : RtRoutingTable

namespace SharedRing

/-- All boards after `rt_on_start`. -/
def start (roles : Orientation → RtRole) (registered : Orientation → ComponentId → Bool) :
    SharedRing where
  boards o :=
    { routing := rtOnStart (rtCreate o (roles o))
      sync := syncInit o (registered o)
      inbox := []
      outbox := []
      others := []
      sending := none
      task := none }
  lastWritten := routingTableInit Orientation.center.output

variable (t : SharedRing)

/-- Board `o` moves; a table it changed by itself is the last written one. -/
def move (o : Orientation) (b : RingBoard) : SharedRing :=
  { boards := Function.update t.boards o b
    lastWritten := if b.table = (t.boards o).table then t.lastWritten else b.table }

/-- Board `o` moves without modifying the table on its own account. -/
def moveQuiet (o : Orientation) (b : RingBoard) : SharedRing :=
  { t with boards := Function.update t.boards o b }

/-- The message in front of an idle board. -/
def handle (o : Orientation) : Option SharedRing :=
  let b := t.boards o
  match b.inbox with
  | [] => none
  | msg :: rest =>
      if b.idle then
        match msg with
        | .sharedState _ _ => some (t.moveQuiet o ({ b with inbox := rest }.handle msg))
        | _ => some (t.move o ({ b with inbox := rest }.handle msg))
      else none

def arrive (o dst : Orientation) (sending : Sending) : SharedRing :=
  let sent := t.moveQuiet o ((t.boards o).reached sending dst)
  sent.moveQuiet dst
    { sent.boards dst with inbox := (sent.boards dst).inbox ++ [sending.msg] }

def step : SharedLabel → Option SharedRing
  | .sendOwn o =>
      match (t.boards o).sending, (t.boards o).outbox with
      | none, msg :: rest =>
          some (t.move o ({ t.boards o with outbox := rest }.startSending o msg true))
      | _, _ => none
  | .sendOther o msg =>
      if (t.boards o).sending = none ∧ msg ∈ (t.boards o).others then
        some (t.move o ({ t.boards o with
          others := (t.boards o).others.erase msg }.startSending o msg false))
      else none
  | .arrive o dst =>
      match (t.boards o).sending with
      | some sending => if dst ∈ sending.left then some (t.arrive o dst sending) else none
      | none => none
  | .handle o => t.handle o
  | .leave o =>
      if (t.boards o).flushed then
        (t.boards o).task.map fun csId => t.move o ((t.boards o).leave csId)
      else none
  | .request o csId => some (t.move o ((t.boards o).request csId))
  | .peerMessage o event len =>
      some (t.move o ((t.boards o).queuePeer (onPeerMessage (t.boards o).routing event len)))
  | .peerConnected o network =>
      some (t.move o ((t.boards o).queuePeer (onPeerConnected (t.boards o).routing network)))
  | .peerLost o network =>
      some (t.move o ((t.boards o).queuePeer (onPeerLost (t.boards o).routing network)))
  | .tick o dtMs => some (t.move o ((t.boards o).tick dtMs))

end SharedRing

def sharedRing : Machine SharedRing SharedLabel := ⟨SharedRing.step⟩

/-! ## The table after a list of calls -/

/-- The table a refresh carries. -/
def RtOutput.refresh : RtOutput → Option RtRoutingTable
  | .sharedState table => some table
  | _ => none

def RingMsg.refresh : RingMsg → Option RtRoutingTable
  | .sharedState .routing table => some table
  | _ => none

/-- The table of a board that handles refreshes in order. -/
def settle (table : RtRoutingTable) (refreshes : List RtRoutingTable) : RtRoutingTable :=
  refreshes.foldl (fun _ table => table) table

@[simp] theorem settle_nil (table : RtRoutingTable) : settle table [] = table := rfl

@[simp] theorem settle_cons (table first : RtRoutingTable) (rest : List RtRoutingTable) :
    settle table (first :: rest) = settle first rest := rfl

@[simp] theorem settle_append (table : RtRoutingTable) (first second : List RtRoutingTable) :
    settle table (first ++ second) = settle (settle table first) second :=
  List.foldl_append

/-- No call changes the table without the refresh that follows: a sibling that handles the
refreshes of a handler has the handler's table. -/
theorem settle_performAll (table : RtRoutingTable) (actions : List RtAction) :
    settle table ((RtAction.performAll table actions).2.filterMap RtOutput.refresh) =
      (RtAction.performAll table actions).1 := by
  induction actions generalizing table with
  | nil => rfl
  | cons action rest ih =>
      have first : settle table ((action.perform table).2.filterMap RtOutput.refresh) =
          (action.perform table).1 := by
        cases action <;> rfl
      rw [RtAction.performAll_cons, List.filterMap_append, settle_append, first]
      exact ih _

theorem settle_criticalSection (board : Routing) :
    settle board.routingTable ((onCriticalSection board).outputs.filterMap RtOutput.refresh) =
      (onCriticalSection board).board.routingTable := by
  unfold onCriticalSection
  dsimp only
  split
  · split
    · exact settle_performAll _ _
    · exact settle_performAll _ _
  · exact settle_performAll _ _

theorem refresh_ringMsg (outputs : List RtOutput) :
    (outputs.filterMap (RtOutput.ringMsg true)).filterMap RingMsg.refresh =
      outputs.filterMap RtOutput.refresh := by
  rw [List.filterMap_filterMap]
  refine List.filterMap_congr fun output _ => ?_
  cases output <;> rfl

theorem rtOnTick_table (table : RtRoutingTable) (role : RtRole) (dtMs : BitVec 32) :
    (RtAction.performAll table (rtOnTick role dtMs).2).1 = table ∧
      ∀ output ∈ (RtAction.performAll table (rtOnTick role dtMs).2).2,
        ∃ event, output = .sibling event := by
  cases role with
  | forwarder state => exact ⟨rfl, by simp [rtOnTick]⟩
  | home state => exact ⟨rfl, by simp [rtOnTick]⟩
  | root state =>
      simp only [rtOnTick, RtRole.ofRoot, Root.onTick]
      split
      · simp
      · split
        · simp [RtAction.perform]
        · simp

end I4A
