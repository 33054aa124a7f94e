import I4A.Wireless.Sockets

/-! # The server task

`server.c` with the event handler of `access_point.c`. `server_close` clears a flag and shuts
the listening socket; a task in `recv` does not notice.
-/

namespace I4A

/-- Where a `tcp_server_task` stands. -/
inductive TcpServerTask where
  | starting
  | opening
  | binding
  | listening
  /-- At the condition of the loop. -/
  | checking
  | accepting
  /-- At the start of `socket_read_loop`. -/
  | entering (sock : Int)
  /-- Before `node_on_peer_connected`. -/
  | announcing (sock : Int)
  /-- In `recv`. -/
  | reading (sock : Int)
  /-- Before `node_on_peer_lost`. -/
  | losing (sock : Int)
  /-- Before `client_sock = -1`. -/
  | clearing (sock : Int)
  | closing (sock : Int)
  | cleaningUp
  deriving DecidableEq

/-- The static variables of `server.c`. -/
structure TcpServer where
  /-- `ap->server_is_up`. -/
  apServerIsUp : Bool
  serverIsUp : Bool
  listenSock : Int
  clientSock : Int
  /-- `peer_net` and `peer_mask`. -/
  peer : Network
  notified : List PeerNotification
  /-- The sockets shut down and closed so far. -/
  closed : List Int
  deriving DecidableEq

inductive AccessPointEvent where
  /-- `WIFI_EVENT_AP_STACONNECTED`: whether `node_is_ap_locked()`, and whether
  `xTaskCreatePinnedToCore` has memory for a task. -/
  | staConnected (locked memory : Bool)
  /-- `WIFI_EVENT_AP_STADISCONNECTED`. -/
  | staDisconnected
  deriving DecidableEq

namespace TcpServer

def start : TcpServer where
  apServerIsUp := false
  serverIsUp := false
  listenSock := -1
  clientSock := -1
  peer := Network.zero
  notified := []
  closed := []

variable (s : TcpServer)

/-- `shutdown(listen_sock, SHUT_RDWR)` and `close(listen_sock)`. -/
def closeListenSock : TcpServer :=
  if s.listenSock ≥ 0 then { s with closed := s.closed ++ [s.listenSock] } else s

/-- `server_create`, and the task it creates. -/
def serverCreate (memory : Bool) : TcpServer × Option TcpServerTask :=
  if !s.serverIsUp then
    ({ s with serverIsUp := true }, if memory then some .starting else none)
  else (s, none)

def serverClose : TcpServer :=
  if s.serverIsUp then ({ s with serverIsUp := false } : TcpServer).closeListenSock else s

/-- `ap_event_handler`. -/
def apEventHandler (isCenter : Bool) : AccessPointEvent → TcpServer × Option TcpServerTask
  | .staConnected locked memory =>
      if !locked then
        if !isCenter && !s.apServerIsUp then
          let created := s.serverCreate memory
          ({ created.1 with apServerIsUp := true }, created.2)
        else (s, none)
      else (s, none)
  | .staDisconnected =>
      if s.apServerIsUp then ({ s.serverClose with apServerIsUp := false }, none)
      else (s, none)

/-- `tcp_server_task` and `socket_read_loop`. -/
def run : TcpServerTask → SocketCall → Option (TcpServer × Option TcpServerTask)
  | .starting, .ipInfo none => some (s, none)
  | .starting, .ipInfo (some (ip, netmask)) =>
      some ({ s with peer := ⟨ip &&& netmask, netmask⟩ }, some .opening)
  | .opening, .socket fd =>
      some ({ s with listenSock := fd }, if fd < 0 then none else some .binding)
  | .binding, .bind err => some (s, some (if err ≠ 0 then .cleaningUp else .listening))
  | .listening, .listen err => some (s, some (if err ≠ 0 then .cleaningUp else .checking))
  | .checking, .next => some (s, some (if s.serverIsUp then .accepting else .cleaningUp))
  | .accepting, .accept sock => some (s, some (if sock < 0 then .checking else .entering sock))
  | .entering sock, .next => some ({ s with clientSock := sock }, some (.announcing sock))
  | .announcing sock, .next =>
      some ({ s with notified := s.notified ++ [.connected s.peer] }, some (.reading sock))
  | .reading sock, .recv (some (byte :: rest)) =>
      some ({ s with notified := s.notified ++ [.message (byte :: rest)] }, some (.reading sock))
  | .reading sock, .recv _ => some (s, some (.losing sock))
  | .losing sock, .next =>
      some ({ s with notified := s.notified ++ [.lost s.peer] }, some (.clearing sock))
  | .clearing sock, .next => some ({ s with clientSock := -1 }, some (.closing sock))
  | .closing sock, .next => some ({ s with closed := s.closed ++ [sock] }, some .checking)
  | .cleaningUp, .next => some (s.closeListenSock, none)
  | _, _ => none

end TcpServer

/-- The server of an access point with every task that `server_create` has created. -/
def tcpServer (isCenter : Bool) :
    TaskProgram TcpServer TcpServerTask AccessPointEvent SocketCall where
  handle s := s.apEventHandler isCenter
  run := TcpServer.run

namespace TcpServerTask

/-- The connection of `socket_read_loop`, from `client_sock = sock` to `client_sock = -1`. -/
def connection : TcpServerTask → Option Int
  | .announcing sock => some sock
  | .reading sock => some sock
  | .losing sock => some sock
  | .clearing sock => some sock
  | _ => none

/-- A connection has a socket that `accept` has returned. -/
def Valid : TcpServerTask → Prop
  | .entering sock => 0 ≤ sock
  | .announcing sock => 0 ≤ sock
  | .reading sock => 0 ≤ sock
  | .losing sock => 0 ≤ sock
  | .clearing sock => 0 ≤ sock
  | _ => True

/-- `PEER_CONNECTED` has been notified and `PEER_LOST` has not. -/
def announced : TcpServerTask → Bool
  | .reading _ => true
  | .losing _ => true
  | _ => false

theorem connection_nonneg {task : TcpServerTask} (valid : task.Valid) {fd : Int}
    (h : task.connection = some fd) : 0 ≤ fd := by
  cases task <;> cases h
  all_goals exact valid

end TcpServerTask

namespace TcpServer

/-- What ties the static variables to the place of the only task. -/
structure Inv (s : TcpServer) (task : TcpServerTask) : Prop where
  alternates : Alternates s.notified
  up : linkIsUp s.notified = task.announced
  sock : s.clientSock = task.connection.getD (-1)
  valid : task.Valid

theorem start_inv : start.Inv .starting := by
  constructor
  · exact List.isChain_singleton false
  · rfl
  · rfl
  · trivial

variable {s u : TcpServer} {task task' : TcpServerTask} {sock : Int}

theorem Inv.quiet (inv : s.Inv task) (notified : u.notified = s.notified)
    (clientSock : u.clientSock = s.clientSock) (announced : task'.announced = task.announced)
    (connection : task'.connection = task.connection) (valid : task'.Valid) : u.Inv task' := by
  constructor
  · rw [notified]
    exact inv.alternates
  · rw [notified, announced]
    exact inv.up
  · rw [clientSock, connection]
    exact inv.sock
  · exact valid

/-! ### The handler -/

/-- An event changes neither the notifications nor `client_sock`; a new task is at its start. -/
structure Handled (s : TcpServer) (r : TcpServer × Option TcpServerTask) : Prop where
  notified : r.1.notified = s.notified
  clientSock : r.1.clientSock = s.clientSock
  fresh : ∀ task, r.2 = some task → task = .starting

theorem Handled.none (notified : u.notified = s.notified)
    (clientSock : u.clientSock = s.clientSock) : s.Handled (u, none) := by
  constructor
  · exact notified
  · exact clientSock
  · intro task h
    cases h

theorem serverCreate_handled (memory : Bool) : s.Handled (s.serverCreate memory) := by
  unfold serverCreate
  split
  · constructor
    · rfl
    · rfl
    · intro task h
      cases memory with
      | false => cases h
      | true =>
          cases h
          rfl
  · exact .none rfl rfl

theorem closeListenSock_handled : s.Handled (s.closeListenSock, none) := by
  unfold closeListenSock
  split
  · exact .none rfl rfl
  · exact .none rfl rfl

theorem serverClose_handled : s.Handled (s.serverClose, none) := by
  unfold serverClose
  split
  · have closing := closeListenSock_handled (s := { s with serverIsUp := false })
    exact .none closing.notified closing.clientSock
  · exact .none rfl rfl

theorem apEventHandler_handled (isCenter : Bool) (event : AccessPointEvent) :
    s.Handled (s.apEventHandler isCenter event) := by
  cases event with
  | staConnected locked memory =>
      simp only [apEventHandler]
      split
      · split
        · have creating := serverCreate_handled (s := s) memory
          exact ⟨creating.notified, creating.clientSock, creating.fresh⟩
        · exact .none rfl rfl
      · exact .none rfl rfl
  | staDisconnected =>
      simp only [apEventHandler]
      split
      · exact .none serverClose_handled.notified serverClose_handled.clientSock
      · exact .none rfl rfl

/-! ### The steps of the only task -/

theorem Inv.enter (inv : s.Inv (.entering sock)) :
    Inv { s with clientSock := sock } (.announcing sock) :=
  ⟨inv.alternates, inv.up, rfl, inv.valid⟩

theorem Inv.announce (inv : s.Inv (.announcing sock)) :
    Inv { s with notified := s.notified ++ [.connected s.peer] } (.reading sock) := by
  have hdown : linkIsUp s.notified = false := inv.up
  constructor
  · exact inv.alternates.connected hdown s.peer
  · exact linkIsUp_append (.connected s.peer)
  · exact inv.sock
  · exact inv.valid

theorem Inv.receive (inv : s.Inv (.reading sock)) (data : List UInt8) :
    Inv { s with notified := s.notified ++ [.message data] } (.reading sock) := by
  constructor
  · exact inv.alternates.message data
  · exact (linkIsUp_append (.message data)).trans inv.up
  · exact inv.sock
  · exact inv.valid

theorem Inv.lose (inv : s.Inv (.losing sock)) :
    Inv { s with notified := s.notified ++ [.lost s.peer] } (.clearing sock) := by
  have hup : linkIsUp s.notified = true := inv.up
  constructor
  · exact inv.alternates.lost hup s.peer
  · exact linkIsUp_append (.lost s.peer)
  · exact inv.sock
  · exact inv.valid

theorem Inv.clear (inv : s.Inv (.clearing sock)) :
    Inv { s with clientSock := -1 } (.closing sock) :=
  ⟨inv.alternates, inv.up, rfl, trivial⟩

theorem Inv.run (inv : s.Inv task) {call : SocketCall} {only : Option TcpServerTask}
    (h : s.run task call = some (u, only)) : u.Inv (only.getD .starting) := by
  cases task with
  | starting =>
      cases call with
      | ipInfo info =>
          cases info with
          | none =>
              cases h
              exact inv
          | some info =>
              cases h
              exact inv.quiet rfl rfl rfl rfl trivial
      | _ => cases h
  | opening =>
      cases call with
      | socket fd =>
          cases h
          split
          · exact inv.quiet rfl rfl rfl rfl trivial
          · exact inv.quiet rfl rfl rfl rfl trivial
      | _ => cases h
  | binding =>
      cases call with
      | bind err =>
          cases h
          rw [Option.getD_some]
          split
          · exact inv.quiet rfl rfl rfl rfl trivial
          · exact inv.quiet rfl rfl rfl rfl trivial
      | _ => cases h
  | listening =>
      cases call with
      | listen err =>
          cases h
          rw [Option.getD_some]
          split
          · exact inv.quiet rfl rfl rfl rfl trivial
          · exact inv.quiet rfl rfl rfl rfl trivial
      | _ => cases h
  | checking =>
      cases call with
      | next =>
          cases h
          rw [Option.getD_some]
          split
          · exact inv.quiet rfl rfl rfl rfl trivial
          · exact inv.quiet rfl rfl rfl rfl trivial
      | _ => cases h
  | accepting =>
      cases call with
      | accept sock =>
          cases h
          by_cases hsock : sock < 0
          · rw [if_pos hsock]
            exact inv.quiet rfl rfl rfl rfl trivial
          · rw [if_neg hsock]
            exact inv.quiet rfl rfl rfl rfl (Int.not_lt.mp hsock)
      | _ => cases h
  | entering sock =>
      cases call with
      | next =>
          cases h
          exact inv.enter
      | _ => cases h
  | announcing sock =>
      cases call with
      | next =>
          cases h
          exact inv.announce
      | _ => cases h
  | reading sock =>
      cases call with
      | recv data =>
          rcases data with _ | _ | ⟨byte, rest⟩
          · cases h
            exact inv.quiet rfl rfl rfl rfl inv.valid
          · cases h
            exact inv.quiet rfl rfl rfl rfl inv.valid
          · cases h
            exact inv.receive (byte :: rest)
      | _ => cases h
  | losing sock =>
      cases call with
      | next =>
          cases h
          exact inv.lose
      | _ => cases h
  | clearing sock =>
      cases call with
      | next =>
          cases h
          exact inv.clear
      | _ => cases h
  | closing sock =>
      cases call with
      | next =>
          cases h
          exact inv.quiet rfl rfl rfl rfl trivial
      | _ => cases h
  | cleaningUp =>
      cases call with
      | next =>
          cases h
          exact inv.quiet closeListenSock_handled.notified closeListenSock_handled.clientSock rfl
            rfl trivial
      | _ => cases h

theorem inv_keeps (isCenter : Bool) :
    (tcpServer isCenter).Keeps fun s only => s.Inv (only.getD .starting) where
  quiet {s e task} inv h := by
    have handled : s.Handled (s.apEventHandler isCenter e) := apEventHandler_handled isCenter e
    exact inv.quiet handled.notified handled.clientSock rfl rfl inv.valid
  create {s e task} inv h := by
    have handled : s.Handled (s.apEventHandler isCenter e) := apEventHandler_handled isCenter e
    have hfresh := handled.fresh task h
    subst hfresh
    exact inv.quiet handled.notified handled.clientSock rfl rfl trivial
  run inv h := inv.run h

theorem Inv.oneConnection {only : Option TcpServerTask} (inv : s.Inv (only.getD .starting)) :
    OneConnection TcpServerTask.connection only.toList s.clientSock s.notified := by
  apply OneConnection.of_single inv.alternates
  · rw [inv.sock]
    cases only with
    | none => rfl
    | some task => rfl
  · intro task fd htask hfd
    subst htask
    exact TcpServerTask.connection_nonneg inv.valid hfd

end TcpServer

end I4A
