import I4A.Wireless.Sockets

/-! # The client task

`client.c` with the event handler of `station.c`. `client_close` only clears a flag; a task in
`recv` does not notice.
-/

namespace I4A

/-- Where a `tcp_client_task` stands. `socket_read_loop` reads from `fd`, the value of
`server_sock` at its call; `sock` is the task's own variable. -/
inductive TcpClientTask where
  /-- At the condition of the loop. -/
  | checking
  | lookingUp
  | findingGateway
  | opening
  | connecting (sock : Int)
  /-- Before `server_sock = sock`. -/
  | entering (sock : Int)
  /-- At the call of `socket_read_loop`. -/
  | calling (sock : Int)
  /-- In `recv`. -/
  | reading (sock fd : Int)
  /-- At the test of `peer_connected` behind a message. -/
  | received (sock fd : Int)
  /-- Before `node_on_peer_connected`. -/
  | announcing (sock fd : Int)
  /-- Before `peer_connected = true`. -/
  | marking (sock fd : Int)
  /-- At the test of `peer_connected` behind the loop. -/
  | ending (sock fd : Int)
  /-- Before `node_on_peer_lost`. -/
  | losing (sock fd : Int)
  /-- Before `peer_connected = false`. -/
  | unmarking (sock fd : Int)
  /-- Before `server_sock = -1`. -/
  | clearing (sock : Int)
  | closing (sock : Int)
  /-- In `vTaskDelay`. -/
  | delaying
  deriving DecidableEq

/-- The static variables of `client.c` and the station that `event_handler` works on. -/
structure TcpClient where
  isFullyConnected : Bool
  apFound : Bool
  /-- `stationPtr->state == s_active`. -/
  active : Bool
  retryNum : Nat
  staIsUp : Bool
  serverSock : Int
  peerConnected : Bool
  /-- `peer_net` and `peer_mask`. -/
  peer : Network
  notified : List PeerNotification
  /-- The sockets closed so far. -/
  closed : List Int
  deriving DecidableEq

inductive StationEvent where
  /-- `WIFI_EVENT_STA_DISCONNECTED`: whether its reason is `WIFI_REASON_ASSOC_TOOMANY`. -/
  | staDisconnected (tooMany : Bool)
  /-- `IP_EVENT_STA_GOT_IP`: whether `xTaskCreatePinnedToCore` has memory for a task. -/
  | staGotIp (memory : Bool)
  deriving DecidableEq

namespace TcpClient

/-- `MAX_RETRIES`. -/
def maxRetries : Nat := 10

/-- After `station_connect`. -/
def start : TcpClient where
  isFullyConnected := false
  apFound := true
  active := true
  retryNum := 0
  staIsUp := false
  serverSock := -1
  peerConnected := false
  peer := Network.zero
  notified := []
  closed := []

variable (s : TcpClient)

/-- `client_open`, and the task it creates. -/
def clientOpen (memory : Bool) : TcpClient × Option TcpClientTask :=
  if !s.staIsUp then
    ({ s with staIsUp := true }, if memory then some .checking else none)
  else (s, none)

def clientClose : TcpClient := if s.staIsUp then { s with staIsUp := false } else s

/-- `WIFI_EVENT_STA_DISCONNECTED` up to the retry. -/
def leaveAccessPoint (tooMany : Bool) : TcpClient :=
  let blocked := if tooMany then { s with retryNum := maxRetries } else s
  if blocked.isFullyConnected then { blocked.clientClose with isFullyConnected := false }
  else blocked

/-- `event_handler` of the station. -/
def eventHandler : StationEvent → TcpClient × Option TcpClientTask
  | .staDisconnected tooMany =>
      let left := s.leaveAccessPoint tooMany
      if left.retryNum < maxRetries then ({ left with retryNum := left.retryNum + 1 }, none)
      else
        ({ left with
            retryNum := 0
            apFound := false
            active := false
            isFullyConnected := false }, none)
  | .staGotIp memory =>
      if s.isFullyConnected then
        let opened := s.clientOpen memory
        ({ opened.1 with retryNum := 0 }, opened.2)
      else ({ s with isFullyConnected := true }, none)

/-- `tcp_client_task` and `socket_read_loop`. -/
def run : TcpClientTask → SocketCall → Option (TcpClient × Option TcpClientTask)
  | .checking, .next => some (s, if s.staIsUp then some .lookingUp else none)
  | .lookingUp, .ipInfo none => some (s, some .delaying)
  | .lookingUp, .ipInfo (some (ip, netmask)) =>
      some ({ s with peer := ⟨ip &&& netmask, netmask⟩ }, some .findingGateway)
  | .findingGateway, .gatewayIp found => some (s, some (if found then .opening else .delaying))
  | .opening, .socket sock => some (s, some (if sock < 0 then .delaying else .connecting sock))
  | .connecting sock, .connect err =>
      if err ≠ 0 then some ({ s with closed := s.closed ++ [sock] }, some .delaying)
      else some (s, some (.entering sock))
  | .entering sock, .next => some ({ s with serverSock := sock }, some (.calling sock))
  | .calling sock, .next => some (s, some (.reading sock s.serverSock))
  | .reading sock fd, .recv (some (byte :: rest)) =>
      some ({ s with notified := s.notified ++ [.message (byte :: rest)] },
        some (.received sock fd))
  | .reading sock fd, .recv _ => some (s, some (.ending sock fd))
  | .received sock fd, .next =>
      some (s, some (if !s.peerConnected then .announcing sock fd else .reading sock fd))
  | .announcing sock fd, .next =>
      some ({ s with notified := s.notified ++ [.connected s.peer] }, some (.marking sock fd))
  | .marking sock fd, .next => some ({ s with peerConnected := true }, some (.reading sock fd))
  | .ending sock fd, .next =>
      some (s, some (if s.peerConnected then .losing sock fd else .clearing sock))
  | .losing sock fd, .next =>
      some ({ s with notified := s.notified ++ [.lost s.peer] }, some (.unmarking sock fd))
  | .unmarking sock _, .next => some ({ s with peerConnected := false }, some (.clearing sock))
  | .clearing sock, .next => some ({ s with serverSock := -1 }, some (.closing sock))
  | .closing sock, .next => some ({ s with closed := s.closed ++ [sock] }, some .delaying)
  | .delaying, .next => some (s, some .checking)
  | _, _ => none

end TcpClient

/-- The client of a station with every task that `client_open` has created. -/
def tcpClient : TaskProgram TcpClient TcpClientTask StationEvent SocketCall where
  handle := TcpClient.eventHandler
  run := TcpClient.run

namespace TcpClientTask

/-- The connection from `server_sock = sock` to `server_sock = -1`: the socket that
`socket_read_loop` reads from. -/
def connection : TcpClientTask → Option Int
  | .calling sock => some sock
  | .reading _ fd => some fd
  | .received _ fd => some fd
  | .announcing _ fd => some fd
  | .marking _ fd => some fd
  | .ending _ fd => some fd
  | .losing _ fd => some fd
  | .unmarking _ fd => some fd
  | .clearing sock => some sock
  | _ => none

/-- The sockets of a task are valid, and it reads from its own. -/
def Valid : TcpClientTask → Prop
  | .connecting sock => 0 ≤ sock
  | .entering sock => 0 ≤ sock
  | .calling sock => 0 ≤ sock
  | .reading sock fd => 0 ≤ sock ∧ fd = sock
  | .received sock fd => 0 ≤ sock ∧ fd = sock
  | .announcing sock fd => 0 ≤ sock ∧ fd = sock
  | .marking sock fd => 0 ≤ sock ∧ fd = sock
  | .ending sock fd => 0 ≤ sock ∧ fd = sock
  | .losing sock fd => 0 ≤ sock ∧ fd = sock
  | .unmarking sock fd => 0 ≤ sock ∧ fd = sock
  | .clearing sock => 0 ≤ sock
  | _ => True

/-- How the last notification and `peer_connected` go together. -/
def Marked (up peerConnected : Bool) : TcpClientTask → Prop
  | .reading _ _ => up = peerConnected
  | .received _ _ => up = peerConnected
  | .announcing _ _ => up = false ∧ peerConnected = false
  | .marking _ _ => up = true ∧ peerConnected = false
  | .ending _ _ => up = peerConnected
  | .losing _ _ => up = true ∧ peerConnected = true
  | .unmarking _ _ => up = false ∧ peerConnected = true
  | _ => up = false ∧ peerConnected = false

theorem connection_nonneg {task : TcpClientTask} (valid : task.Valid) {fd : Int}
    (h : task.connection = some fd) : 0 ≤ fd := by
  cases task <;> cases h
  case calling.refl => exact valid
  case clearing.refl => exact valid
  all_goals
    have hfd := valid.2
    exact hfd ▸ valid.1

end TcpClientTask

namespace TcpClient

/-- What ties the static variables to the place of the only task. -/
structure Inv (s : TcpClient) (task : TcpClientTask) : Prop where
  alternates : Alternates s.notified
  marked : task.Marked (linkIsUp s.notified) s.peerConnected
  sock : s.serverSock = task.connection.getD (-1)
  valid : task.Valid

theorem start_inv : start.Inv .checking := by
  constructor
  · exact List.isChain_singleton false
  · exact ⟨rfl, rfl⟩
  · rfl
  · trivial

variable {s u : TcpClient} {task task' : TcpClientTask} {sock fd : Int}

theorem Inv.quiet (inv : s.Inv task) (notified : u.notified = s.notified)
    (peerConnected : u.peerConnected = s.peerConnected) (serverSock : u.serverSock = s.serverSock)
    (marked : task'.Marked (linkIsUp s.notified) s.peerConnected)
    (connection : task'.connection = task.connection) (valid : task'.Valid) : u.Inv task' := by
  constructor
  · rw [notified]
    exact inv.alternates
  · rw [notified, peerConnected]
    exact marked
  · rw [serverSock, connection]
    exact inv.sock
  · exact valid

/-! ### The handler -/

/-- An event changes neither the notifications, nor `peer_connected`, nor `server_sock`; a new
task is at its start. -/
structure Handled (s : TcpClient) (r : TcpClient × Option TcpClientTask) : Prop where
  notified : r.1.notified = s.notified
  peerConnected : r.1.peerConnected = s.peerConnected
  serverSock : r.1.serverSock = s.serverSock
  fresh : ∀ task, r.2 = some task → task = .checking

theorem Handled.none (notified : u.notified = s.notified)
    (peerConnected : u.peerConnected = s.peerConnected) (serverSock : u.serverSock = s.serverSock) :
    s.Handled (u, none) := by
  constructor
  · exact notified
  · exact peerConnected
  · exact serverSock
  · intro task h
    cases h

theorem clientOpen_handled (memory : Bool) : s.Handled (s.clientOpen memory) := by
  unfold clientOpen
  split
  · constructor
    · rfl
    · rfl
    · rfl
    · intro task h
      cases memory with
      | false => cases h
      | true =>
          cases h
          rfl
  · exact .none rfl rfl rfl

theorem clientClose_handled : s.Handled (s.clientClose, none) := by
  unfold clientClose
  split
  · exact .none rfl rfl rfl
  · exact .none rfl rfl rfl

theorem leaveAccessPoint_handled (tooMany : Bool) :
    s.Handled (s.leaveAccessPoint tooMany, none) := by
  have blocked : s.Handled (if tooMany then { s with retryNum := maxRetries } else s, none) := by
    split
    · exact .none rfl rfl rfl
    · exact .none rfl rfl rfl
  unfold leaveAccessPoint
  simp only
  generalize (if tooMany then { s with retryNum := maxRetries } else s) = t at blocked
  split
  · have closing := clientClose_handled (s := t)
    exact .none (closing.notified.trans blocked.notified)
      (closing.peerConnected.trans blocked.peerConnected)
      (closing.serverSock.trans blocked.serverSock)
  · exact blocked

theorem eventHandler_handled (event : StationEvent) : s.Handled (s.eventHandler event) := by
  cases event with
  | staDisconnected tooMany =>
      have left := leaveAccessPoint_handled (s := s) tooMany
      simp only [eventHandler]
      split
      · exact .none left.notified left.peerConnected left.serverSock
      · exact .none left.notified left.peerConnected left.serverSock
  | staGotIp memory =>
      simp only [eventHandler]
      split
      · have opening := clientOpen_handled (s := s) memory
        exact ⟨opening.notified, opening.peerConnected, opening.serverSock, opening.fresh⟩
      · exact .none rfl rfl rfl

/-! ### The steps of the only task -/

theorem Inv.enter (inv : s.Inv (.entering sock)) :
    Inv { s with serverSock := sock } (.calling sock) :=
  ⟨inv.alternates, inv.marked, rfl, inv.valid⟩

theorem Inv.call (inv : s.Inv (.calling sock)) : s.Inv (.reading sock s.serverSock) := by
  have hsock : s.serverSock = sock := inv.sock
  obtain ⟨hup, hconnected⟩ := inv.marked
  constructor
  · exact inv.alternates
  · exact hup.trans hconnected.symm
  · rfl
  · exact ⟨inv.valid, hsock⟩

theorem Inv.receive (inv : s.Inv (.reading sock fd)) (data : List UInt8) :
    Inv { s with notified := s.notified ++ [.message data] } (.received sock fd) := by
  constructor
  · exact inv.alternates.message data
  · exact (linkIsUp_append (.message data)).trans inv.marked
  · exact inv.sock
  · exact inv.valid

theorem Inv.announce (inv : s.Inv (.announcing sock fd)) :
    Inv { s with notified := s.notified ++ [.connected s.peer] } (.marking sock fd) := by
  obtain ⟨hdown, hconnected⟩ := inv.marked
  constructor
  · exact inv.alternates.connected hdown s.peer
  · exact ⟨linkIsUp_append (.connected s.peer), hconnected⟩
  · exact inv.sock
  · exact inv.valid

theorem Inv.mark (inv : s.Inv (.marking sock fd)) :
    Inv { s with peerConnected := true } (.reading sock fd) :=
  ⟨inv.alternates, inv.marked.1, inv.sock, inv.valid⟩

theorem Inv.lose (inv : s.Inv (.losing sock fd)) :
    Inv { s with notified := s.notified ++ [.lost s.peer] } (.unmarking sock fd) := by
  obtain ⟨hup, hconnected⟩ := inv.marked
  constructor
  · exact inv.alternates.lost hup s.peer
  · exact ⟨linkIsUp_append (.lost s.peer), hconnected⟩
  · exact inv.sock
  · exact inv.valid

theorem Inv.unmark (inv : s.Inv (.unmarking sock fd)) :
    Inv { s with peerConnected := false } (.clearing sock) := by
  obtain ⟨hle, hfd⟩ := inv.valid
  constructor
  · exact inv.alternates
  · exact ⟨inv.marked.1, rfl⟩
  · rw [← hfd]
    exact inv.sock
  · exact hle

theorem Inv.clear (inv : s.Inv (.clearing sock)) :
    Inv { s with serverSock := -1 } (.closing sock) :=
  ⟨inv.alternates, inv.marked, rfl, trivial⟩

theorem Inv.testReceived (inv : s.Inv (.received sock fd)) :
    s.Inv (if !s.peerConnected then .announcing sock fd else .reading sock fd) := by
  have hmarked : linkIsUp s.notified = s.peerConnected := inv.marked
  cases hconnected : s.peerConnected with
  | false =>
      exact inv.quiet rfl rfl rfl ⟨hmarked.trans hconnected, hconnected⟩ rfl inv.valid
  | true => exact inv.quiet rfl rfl rfl hmarked rfl inv.valid

theorem Inv.testEnding (inv : s.Inv (.ending sock fd)) :
    s.Inv (if s.peerConnected then .losing sock fd else .clearing sock) := by
  have hmarked : linkIsUp s.notified = s.peerConnected := inv.marked
  obtain ⟨hle, hfd⟩ := inv.valid
  cases hconnected : s.peerConnected with
  | false =>
      exact inv.quiet rfl rfl rfl ⟨hmarked.trans hconnected, hconnected⟩
        (congrArg some hfd.symm) hle
  | true =>
      exact inv.quiet rfl rfl rfl ⟨hmarked.trans hconnected, hconnected⟩ rfl inv.valid

theorem Inv.run (inv : s.Inv task) {call : SocketCall} {only : Option TcpClientTask}
    (h : s.run task call = some (u, only)) : u.Inv (only.getD .checking) := by
  cases task with
  | checking =>
      cases call with
      | next =>
          cases h
          split
          · exact inv.quiet rfl rfl rfl inv.marked rfl trivial
          · exact inv
      | _ => cases h
  | lookingUp =>
      cases call with
      | ipInfo info =>
          cases info with
          | none =>
              cases h
              exact inv.quiet rfl rfl rfl inv.marked rfl trivial
          | some info =>
              cases h
              exact inv.quiet rfl rfl rfl inv.marked rfl trivial
      | _ => cases h
  | findingGateway =>
      cases call with
      | gatewayIp found =>
          cases h
          cases found with
          | false => exact inv.quiet rfl rfl rfl inv.marked rfl trivial
          | true => exact inv.quiet rfl rfl rfl inv.marked rfl trivial
      | _ => cases h
  | opening =>
      cases call with
      | socket sock =>
          cases h
          by_cases hsock : sock < 0
          · rw [if_pos hsock]
            exact inv.quiet rfl rfl rfl inv.marked rfl trivial
          · rw [if_neg hsock]
            exact inv.quiet rfl rfl rfl inv.marked rfl (Int.not_lt.mp hsock)
      | _ => cases h
  | connecting sock =>
      cases call with
      | connect err =>
          change (if err ≠ 0 then some _ else some _) = some (u, only) at h
          split at h
          · cases h
            exact inv.quiet rfl rfl rfl inv.marked rfl trivial
          · cases h
            exact inv.quiet rfl rfl rfl inv.marked rfl inv.valid
      | _ => cases h
  | entering sock =>
      cases call with
      | next =>
          cases h
          exact inv.enter
      | _ => cases h
  | calling sock =>
      cases call with
      | next =>
          cases h
          exact inv.call
      | _ => cases h
  | reading sock fd =>
      cases call with
      | recv data =>
          rcases data with _ | _ | ⟨byte, rest⟩
          · cases h
            exact inv.quiet rfl rfl rfl inv.marked rfl inv.valid
          · cases h
            exact inv.quiet rfl rfl rfl inv.marked rfl inv.valid
          · cases h
            exact inv.receive (byte :: rest)
      | _ => cases h
  | received sock fd =>
      cases call with
      | next =>
          cases h
          exact inv.testReceived
      | _ => cases h
  | announcing sock fd =>
      cases call with
      | next =>
          cases h
          exact inv.announce
      | _ => cases h
  | marking sock fd =>
      cases call with
      | next =>
          cases h
          exact inv.mark
      | _ => cases h
  | ending sock fd =>
      cases call with
      | next =>
          cases h
          exact inv.testEnding
      | _ => cases h
  | losing sock fd =>
      cases call with
      | next =>
          cases h
          exact inv.lose
      | _ => cases h
  | unmarking sock fd =>
      cases call with
      | next =>
          cases h
          exact inv.unmark
      | _ => cases h
  | clearing sock =>
      cases call with
      | next =>
          cases h
          exact inv.clear
      | _ => cases h
  | closing sock =>
      cases call with
      | next =>
          cases h
          exact inv.quiet rfl rfl rfl inv.marked rfl trivial
      | _ => cases h
  | delaying =>
      cases call with
      | next =>
          cases h
          exact inv.quiet rfl rfl rfl inv.marked rfl trivial
      | _ => cases h

theorem inv_keeps : tcpClient.Keeps fun s only => s.Inv (only.getD .checking) where
  quiet {s e task} inv h := by
    have handled : s.Handled (s.eventHandler e) := eventHandler_handled e
    exact inv.quiet handled.notified handled.peerConnected handled.serverSock inv.marked rfl
      inv.valid
  create {s e task} inv h := by
    have handled : s.Handled (s.eventHandler e) := eventHandler_handled e
    have hfresh := handled.fresh task h
    subst hfresh
    exact inv.quiet handled.notified handled.peerConnected handled.serverSock inv.marked rfl
      trivial
  run inv h := inv.run h

theorem Inv.oneConnection {only : Option TcpClientTask} (inv : s.Inv (only.getD .checking)) :
    OneConnection TcpClientTask.connection only.toList s.serverSock s.notified := by
  apply OneConnection.of_single inv.alternates
  · rw [inv.sock]
    cases only with
    | none => rfl
    | some task => rfl
  · intro task fd htask hfd
    subst htask
    exact TcpClientTask.connection_nonneg inv.valid hfd

end TcpClient

end I4A
