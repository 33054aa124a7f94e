import Mathlib.Data.List.Chain
import I4A.Core.TaskPool
import I4A.Routing.Types

/-! # Socket tasks

What the tasks of `server.c` and `client.c` have in common: the results of the calls they make,
which the network decides, and their calls into `callbacks.c`.
-/

namespace I4A

/-- The call that a task makes next, with its result. -/
inductive SocketCall where
  /-- No call: a test or an assignment, a log, a delay, or `close`. -/
  | next
  /-- `esp_netif_get_ip_info`: address and mask in host byte order. -/
  | ipInfo (info : Option (BitVec 32 × BitVec 32))
  /-- `get_gateway_ip`. -/
  | gatewayIp (found : Bool)
  | socket (fd : Int)
  | bind (err : Int)
  | listen (err : Int)
  | accept (fd : Int)
  | connect (err : Int)
  /-- `recv`; an error is `none`. -/
  | recv (data : Option (List UInt8))
  deriving DecidableEq

/-- `node_on_peer_connected`, `node_on_peer_message` and `node_on_peer_lost`. -/
inductive PeerNotification where
  | connected (peer : Network)
  | message (data : List UInt8)
  | lost (peer : Network)
  deriving DecidableEq

/-- `PEER_CONNECTED` is `true`, `PEER_LOST` is `false`. -/
def PeerNotification.link : PeerNotification → Option Bool
  | .connected _ => some true
  | .message _ => none
  | .lost _ => some false

def links (notified : List PeerNotification) : List Bool :=
  notified.filterMap PeerNotification.link

/-- The link is down at first, and every notification changes that. -/
def Alternates (notified : List PeerNotification) : Prop :=
  (false :: links notified).IsChain (· ≠ ·)

/-- The last notification about the link is `PEER_CONNECTED`. -/
def linkIsUp (notified : List PeerNotification) : Bool := (links notified).getLastD false

section Notifications

variable {notified : List PeerNotification}

theorem links_append (n : PeerNotification) :
    links (notified ++ [n]) = links notified ++ n.link.toList := by
  unfold links
  rw [List.filterMap_append]
  cases n <;> rfl

theorem linkIsUp_append (n : PeerNotification) :
    linkIsUp (notified ++ [n]) = n.link.getD (linkIsUp notified) := by
  unfold linkIsUp
  rw [links_append]
  cases n.link with
  | none => rw [Option.toList_none, List.append_nil, Option.getD_none]
  | some link => rw [Option.toList_some, List.getLastD_concat, Option.getD_some]

theorem Alternates.append (h : Alternates notified) {n : PeerNotification}
    (changes : ∀ link, n.link = some link → linkIsUp notified ≠ link) :
    Alternates (notified ++ [n]) := by
  unfold Alternates
  rw [links_append]
  cases hlink : n.link with
  | none =>
      rw [Option.toList_none, List.append_nil]
      exact h
  | some link =>
      rw [Option.toList_some, ← List.cons_append, List.isChain_append]
      refine ⟨h, List.isChain_singleton link, ?_⟩
      intro last hlast new hnew
      cases hnew
      rw [List.getLast?_cons, Option.mem_some_iff] at hlast
      rw [← hlast, ← List.getLastD_eq_getLast?]
      exact changes link hlink

theorem Alternates.connected (h : Alternates notified) (down : linkIsUp notified = false)
    (peer : Network) : Alternates (notified ++ [.connected peer]) := by
  apply h.append
  intro link hlink
  cases hlink
  rw [down]
  decide

theorem Alternates.message (h : Alternates notified) (data : List UInt8) :
    Alternates (notified ++ [.message data]) := by
  apply h.append
  intro link hlink
  cases hlink

theorem Alternates.lost (h : Alternates notified) (up : linkIsUp notified = true)
    (peer : Network) : Alternates (notified ++ [.lost peer]) := by
  apply h.append
  intro link hlink
  cases hlink
  rw [up]
  decide

end Notifications

/-- One connection at a time: `connection` is the socket that a task reads, `sock` the static
variable for it. -/
structure OneConnection {Task : Type*} (connection : Task → Option Int) (tasks : List Task)
    (sock : Int) (notified : List PeerNotification) : Prop where
  oneTask : tasks.length ≤ 1
  alternates : Alternates notified
  reading : 0 ≤ sock ↔ ∃ task ∈ tasks, (connection task).isSome
  equals : ∀ task ∈ tasks, ∀ fd, connection task = some fd → sock = fd

theorem OneConnection.of_single {Task : Type*} {connection : Task → Option Int}
    {only : Option Task} {sock : Int} {notified : List PeerNotification}
    (alternates : Alternates notified) (hsock : sock = (only.bind connection).getD (-1))
    (nonneg : ∀ task fd, only = some task → connection task = some fd → 0 ≤ fd) :
    OneConnection connection only.toList sock notified := by
  constructor
  · exact Option.length_toList_le
  · exact alternates
  · subst hsock
    constructor
    · intro hle
      cases only with
      | none => cases hle
      | some task =>
          refine ⟨task, List.mem_singleton_self task, ?_⟩
          rw [Option.bind_some] at hle
          cases hfd : connection task with
          | none =>
              rw [hfd] at hle
              cases hle
          | some fd => rfl
    · rintro ⟨task, htask, hsome⟩
      have honly : only = some task := Option.mem_toList.mp htask
      obtain ⟨fd, hfd⟩ := Option.isSome_iff_exists.mp hsome
      rw [honly, Option.bind_some, hfd, Option.getD_some]
      exact nonneg task fd honly hfd
  · intro task htask fd hfd
    have honly : only = some task := Option.mem_toList.mp htask
    rw [hsock, honly, Option.bind_some, hfd, Option.getD_some]

end I4A
