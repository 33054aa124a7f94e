import I4A.Wireless.Client
import I4A.Wireless.Server

/-! # One server task and one client task

The events of the access point and of the station, and the steps of all tasks that are alive,
in any order. `server_create` and `client_open` look at a flag that `server_close` and
`client_close` clear while the task of the flag may still be in `recv`.
-/

namespace I4A

/-- A board with its server and its client. -/
abbrev SocketTasks := TaskPool TcpServer TcpServerTask × TaskPool TcpClient TcpClientTask

abbrev SocketLabel := TaskLabel AccessPointEvent SocketCall ⊕ TaskLabel StationEvent SocketCall

def socketTasks (isCenter : Bool) : Machine SocketTasks SocketLabel :=
  (tcpServer isCenter).machine.prod tcpClient.machine

namespace SocketTasks

def start : SocketTasks := (⟨TcpServer.start, []⟩, ⟨TcpClient.start, []⟩)

/-- One connection at a time on either side. -/
structure OneEach (t : SocketTasks) : Prop where
  server : OneConnection TcpServerTask.connection t.1.tasks t.1.shared.clientSock
    t.1.shared.notified
  client : OneConnection TcpClientTask.connection t.2.tasks t.2.shared.serverSock
    t.2.shared.notified

/-- A station that brings the server up connects after every earlier server task has ended. -/
def serverInTime (isCenter : Bool) (p : TaskPool TcpServer TcpServerTask) :
    TaskLabel AccessPointEvent SocketCall → Bool
  | .event (.staConnected locked memory) =>
      locked || isCenter || p.shared.apServerIsUp || p.shared.serverIsUp || !memory ||
        p.tasks.isEmpty
  | _ => true

/-- An address that opens the client comes after every earlier client task has ended. -/
def clientInTime (p : TaskPool TcpClient TcpClientTask) :
    TaskLabel StationEvent SocketCall → Bool
  | .event (.staGotIp memory) =>
      !p.shared.isFullyConnected || p.shared.staIsUp || !memory || p.tasks.isEmpty
  | _ => true

def inTime (isCenter : Bool) (t : SocketTasks) (l : SocketLabel) : Bool :=
  Sum.elim (serverInTime isCenter t.1) (clientInTime t.2) l

variable {isCenter : Bool}

theorem serverInTime_eq (p : TaskPool TcpServer TcpServerTask)
    (l : TaskLabel AccessPointEvent SocketCall) :
    serverInTime isCenter p l = (tcpServer isCenter).alone p l := by
  cases l with
  | event e =>
      cases e with
      | staConnected locked memory =>
          simp only [serverInTime, TaskProgram.alone, tcpServer, TcpServer.apEventHandler,
            TcpServer.serverCreate]
          cases locked <;> cases isCenter <;> cases p.shared.apServerIsUp <;>
            cases p.shared.serverIsUp <;> cases memory <;> rfl
      | staDisconnected =>
          simp only [serverInTime, TaskProgram.alone, tcpServer, TcpServer.apEventHandler]
          cases p.shared.apServerIsUp <;> rfl
  | task i a => rfl

theorem clientInTime_eq (p : TaskPool TcpClient TcpClientTask)
    (l : TaskLabel StationEvent SocketCall) : clientInTime p l = tcpClient.alone p l := by
  cases l with
  | event e =>
      cases e with
      | staDisconnected tooMany =>
          simp only [clientInTime, TaskProgram.alone, tcpClient, TcpClient.eventHandler]
          split <;> rfl
      | staGotIp memory =>
          simp only [clientInTime, TaskProgram.alone, tcpClient, TcpClient.eventHandler,
            TcpClient.clientOpen]
          cases p.shared.isFullyConnected <;> cases p.shared.staIsUp <;> cases memory <;> rfl
  | task i a => rfl

/-- The invariant of both sides. -/
def Single (t : SocketTasks) : Prop :=
  TaskProgram.Single (fun s only => s.Inv (only.getD .starting)) t.1 ∧
    TaskProgram.Single (fun s only => s.Inv (only.getD .checking)) t.2

theorem Single.oneEach {t : SocketTasks} (h : t.Single) : t.OneEach := by
  obtain ⟨⟨server, hserver, sinv⟩, ⟨client, hclient, cinv⟩⟩ := h
  constructor
  · rw [hserver]
    exact sinv.oneConnection
  · rw [hclient]
    exact cinv.oneConnection

theorem start_single : start.Single :=
  ⟨⟨none, rfl, TcpServer.start_inv⟩, ⟨none, rfl, TcpClient.start_inv⟩⟩

theorem Single.step {t u : SocketTasks} (h : t.Single) {l : SocketLabel}
    (guard : inTime isCenter t l = true) (hs : (socketTasks isCenter).step t l = some u) :
    u.Single := by
  cases l with
  | inl l =>
      obtain ⟨p, hp, rfl⟩ := Option.map_eq_some_iff.mp hs
      have halone := (serverInTime_eq t.1 l).symm.trans guard
      exact ⟨h.1.step (TcpServer.inv_keeps isCenter) halone hp, h.2⟩
  | inr l =>
      obtain ⟨p, hp, rfl⟩ := Option.map_eq_some_iff.mp hs
      have halone := (clientInTime_eq t.2 l).symm.trans guard
      exact ⟨h.1, h.2.step TcpClient.inv_keeps halone hp⟩

/-- An event that is not in time makes two tasks. -/
theorem OneEach.inTime {t u : SocketTasks} {l : SocketLabel}
    (hs : (socketTasks isCenter).step t l = some u) (h : u.OneEach) :
    inTime isCenter t l = true := by
  cases l with
  | inl l =>
      obtain ⟨p, hp, rfl⟩ := Option.map_eq_some_iff.mp hs
      exact (serverInTime_eq t.1 l).trans (TaskProgram.alone_of_length_le hp h.server.oneTask)
  | inr l =>
      obtain ⟨p, hp, rfl⟩ := Option.map_eq_some_iff.mp hs
      exact (clientInTime_eq t.2 l).trans (TaskProgram.alone_of_length_le hp h.client.oneTask)

end SocketTasks

open SocketTasks

/-- As long as no station and no address come before the earlier tasks have ended, there is one
task of each kind at most, its notifications alternate and the static socket is the one it
reads from; the first event that comes too early ends this. -/
theorem socketTasks_oneEach (isCenter : Bool) {t : SocketTasks}
    (run : (socketTasks isCenter).Executes (fun t l => inTime isCenter t l = true) start t) :
    t.OneEach ∧ ∀ l u, (socketTasks isCenter).step t l = some u →
      (u.OneEach ↔ inTime isCenter t l = true) := by
  have single : t.Single :=
    run.invariant start_single fun _ _ _ h guard hs => h.step guard hs
  refine ⟨single.oneEach, ?_⟩
  intro l u hs
  exact ⟨fun h => h.inTime hs, fun guard => (single.step guard hs).oneEach⟩

namespace SocketTasks

/-- The server task `i` from its start to `recv` on `sock`, with `10.33.0.1/16` and `listen_sock`
54. -/
def serverAccepts (i : Nat) (sock : Int) : List SocketLabel :=
  [.ipInfo (some (0x0a210001, 0xffff0000)), .socket 54, .bind 0, .listen 0, .next, .accept sock,
    .next, .next].map fun call => .inl (.task i call)

/-- The server task `i` from a read error to the condition of its loop. -/
def serverLoses (i : Nat) : List SocketLabel :=
  [.recv none, .next, .next, .next].map fun call => .inl (.task i call)

/-- The client task `i` from its start to a first message on `sock`. -/
def clientConnects (i : Nat) (sock : Int) : List SocketLabel :=
  [.next, .ipInfo (some (0x0a210002, 0xffff0000)), .gatewayIp true, .socket sock, .connect 0,
    .next, .next, .recv (some [1]), .next, .next, .next].map fun call => .inr (.task i call)

/-- A station comes and goes, the server task ends, and the next station comes; the client has
its first connection. -/
def stationAfterStation : List SocketLabel :=
  [.inl (.event (.staConnected false true))] ++ serverAccepts 0 55 ++
    [.inl (.event .staDisconnected)] ++ serverLoses 0 ++
    [.inl (.task 0 .next), .inl (.task 0 .next), .inl (.event (.staConnected false true))] ++
    serverAccepts 0 55 ++
    [.inr (.event (.staGotIp true)), .inr (.event (.staGotIp true))] ++ clientConnects 0 56

/-- The next station comes while the task of the first one is in `recv`, whose error comes last. -/
def lateReadError : List SocketLabel :=
  [.inl (.event (.staConnected false true))] ++ serverAccepts 0 55 ++
    [.inl (.event .staDisconnected), .inl (.event (.staConnected false true))] ++
    serverAccepts 1 56 ++ serverLoses 0

end SocketTasks

theorem stationAfterStation_runs :
    ((socketTasks false).runWith (inTime false) start stationAfterStation).isSome = true := by
  decide

theorem socketTasks_oneEach_stations :
    let t := ((socketTasks false).runWith (inTime false) start stationAfterStation).get
      stationAfterStation_runs
    t.OneEach ∧ ∀ l u, (socketTasks false).step t l = some u →
      (u.OneEach ↔ inTime false t l = true) :=
  socketTasks_oneEach false
    (Machine.executes_of_runWith (Option.some_get stationAfterStation_runs).symm)

/-- Two server tasks are alive, `PEER_CONNECTED` has been notified twice without a `PEER_LOST`
between, and `client_sock` is -1 although the second task reads from its socket. -/
theorem socketTasks_lateReadError :
    ∃ t, (socketTasks false).Reaches start t ∧ t.1.tasks.length = 2 ∧
      ¬ Alternates t.1.shared.notified ∧ t.1.shared.clientSock = -1 ∧
      .reading 56 ∈ t.1.tasks ∧ ¬ t.OneEach := by
  obtain ⟨t, ht, htasks, hlinks, hsock⟩ : ∃ t,
      (socketTasks false).run start lateReadError = some t ∧
      t.1.tasks = [.checking, .reading 56] ∧
      links t.1.shared.notified = [true, true, false] ∧
      t.1.shared.clientSock = -1 := ⟨_, rfl, rfl, rfl, rfl⟩
  have hlength : t.1.tasks.length = 2 := congrArg List.length htasks
  have hmem : .reading 56 ∈ t.1.tasks := by
    rw [htasks]
    exact List.mem_cons_of_mem _ (List.mem_singleton_self _)
  refine ⟨t, Machine.reaches_of_run ht, hlength, ?_, hsock, hmem, ?_⟩
  · unfold Alternates
    rw [hlinks]
    decide
  · intro h
    have hle := h.server.oneTask
    omega

end I4A
