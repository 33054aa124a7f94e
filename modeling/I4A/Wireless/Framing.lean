import I4A.Routing.Wire

/-! # Peer messages over the TCP connection

`client.c` and `server.c`. A message is written with one `send`; the other side
takes whatever one `recv` returns for a message, and `on_peer_message` checks its
length.
-/

namespace I4A

/-- `BUFFER_SIZE` of the two read loops. -/
def bufferSize : Nat := 512

/-- `node_send_wireless_message` when the first `send` succeeds: the bytes on the stream. -/
def nodeSendWirelessMessage (stream : List UInt8) (m : PeerMessage) : List UInt8 :=
  stream ++ m.bytes

/-- The bytes of messages sent one after the other. -/
def written (sent : List PeerMessage) : List UInt8 := sent.foldl nodeSendWirelessMessage []

/-- Results of `recv` that make up the stream. -/
structure Cut (stream : List UInt8) (pieces : List (List UInt8)) : Prop where
  inOrder : pieces.flatten = stream
  size : ∀ piece ∈ pieces, 1 ≤ piece.length ∧ piece.length ≤ bufferSize

/-- What happens to the receiving routing module. -/
inductive ReceiverStep where
  /-- A result of `recv` comes through the message queue to `on_peer_message`. -/
  | received (data : List UInt8)
  | peerConnected (network : Network)
  | peerLost (network : Network)
  | siblingMessage (event : RtSiblEvent) (len : Nat)
  | criticalSection
  deriving DecidableEq

namespace ReceiverStep

/-- `on_peer_message` for a result of `recv`. -/
def onReceived (board : Routing) (data : List UInt8) : Routing × Bool :=
  onPeerMessage board (.decode data) data.length

def step (board : Routing) : ReceiverStep → Routing
  | .received data => (onReceived board data).1
  | .peerConnected network => (onPeerConnected board network).1
  | .peerLost network => (onPeerLost board network).1
  | .siblingMessage event len => (onSiblingMessage board event len).1
  | .criticalSection => (onCriticalSection board).board

/-- The results of `recv`, in order. -/
def pieces : List ReceiverStep → List (List UInt8)
  | [] => []
  | .received data :: steps => data :: pieces steps
  | _ :: steps => pieces steps

/-- Those that `on_peer_message` accepts. -/
def accepted (board : Routing) : List ReceiverStep → List (List UInt8)
  | [] => []
  | .received data :: steps =>
      (if (onReceived board data).2 then [data] else []) ++
        accepted (onReceived board data).1 steps
  | other :: steps => accepted (other.step board) steps

/-- Every result of `recv` has the size of one message and finds room in the queue. -/
def Whole (board : Routing) : List ReceiverStep → Prop
  | [] => True
  | .received data :: steps =>
      (data.length = sizeofRtPeerEvent ∧ board.externalQueue.length < maxPeerEventQueued) ∧
        Whole (onReceived board data).1 steps
  | other :: steps => Whole (other.step board) steps

/-! ## What is accepted -/

theorem onReceived_accepts (board : Routing) (data : List UInt8) :
    (onReceived board data).2 = true ↔
      data.length = sizeofRtPeerEvent ∧ board.externalQueue.length < maxPeerEventQueued := by
  unfold onReceived onPeerMessage queuePeerMessage
  by_cases hlen : data.length = sizeofRtPeerEvent
  · rw [if_neg (fun h => h hlen.symm)]
    by_cases hroom : board.externalQueue.length < maxPeerEventQueued
    · rw [if_neg (by omega)]
      simp [hlen, hroom]
    · rw [if_pos (by omega)]
      simp [hroom]
  · rw [if_pos (fun h => hlen h.symm)]
    simp [hlen]

theorem accepted_sublist (board : Routing) (steps : List ReceiverStep) :
    (accepted board steps).Sublist (pieces steps) := by
  induction steps generalizing board with
  | nil => exact .slnil
  | cons first steps ih =>
      cases first with
      | received data =>
          rw [accepted, pieces]
          split
          · exact (ih _).cons_cons data
          · exact (ih _).cons data
      | _ => exact ih _

theorem accepted_size {board : Routing} {steps : List ReceiverStep} {data : List UInt8}
    (h : data ∈ accepted board steps) : data.length = sizeofRtPeerEvent := by
  induction steps generalizing board with
  | nil => cases h
  | cons first steps ih =>
      cases first with
      | received data' =>
          rw [accepted, List.mem_append] at h
          cases h with
          | inl hfirst =>
              split at hfirst
              · next haccept =>
                rw [List.mem_singleton] at hfirst
                subst hfirst
                exact ((onReceived_accepts board data).mp haccept).1
              · cases hfirst
          | inr hrest => exact ih hrest
      | _ => exact ih h

/-- Everything is accepted exactly if every piece is whole. -/
theorem accepted_eq_pieces_iff (board : Routing) (steps : List ReceiverStep) :
    accepted board steps = pieces steps ↔ Whole board steps := by
  induction steps generalizing board with
  | nil => simp [accepted, pieces, Whole]
  | cons first steps ih =>
      cases first with
      | received data =>
          rw [accepted, pieces, Whole, ← onReceived_accepts, ← ih]
          by_cases haccept : (onReceived board data).2 = true
          · simp [haccept]
          · have hshort : (accepted (onReceived board data).1 steps).length ≤
                (pieces steps).length := (accepted_sublist _ steps).length_le
            have hne : accepted (onReceived board data).1 steps ≠ data :: pieces steps := by
              intro h
              rw [h, List.length_cons] at hshort
              omega
            simp [haccept, hne]
      | _ => exact ih _

end ReceiverStep

theorem written_eq (sent : List PeerMessage) : written sent = (sent.map (·.bytes)).flatten := by
  have hfold : ∀ stream, sent.foldl nodeSendWirelessMessage stream =
      stream ++ (sent.map (·.bytes)).flatten := by
    induction sent with
    | nil => simp
    | cons m rest ih =>
        intro stream
        rw [List.foldl_cons, ih]
        simp [nodeSendWirelessMessage]
  rw [written, hfold, List.nil_append]

open ReceiverStep

/-- The events accepted are the messages sent exactly if every `recv` returned one message
and found room in the queue. -/
theorem peerFraming_iff (board : Routing) (sent : List PeerMessage) (steps : List ReceiverStep)
    (cut : Cut (written sent) (pieces steps)) :
    (accepted board steps).map .decode = sent.map (·.event) ↔ Whole board steps := by
  rw [← accepted_eq_pieces_iff]
  have hstream := cut.inOrder
  rw [written_eq] at hstream
  have hsent : ∀ piece ∈ sent.map (·.bytes), piece.length = sizeofRtPeerEvent := by
    intro piece hpiece
    obtain ⟨m, -, rfl⟩ := List.mem_map.mp hpiece
    exact m.size
  constructor
  · intro h
    -- as many bytes are accepted as were sent, so none is left for a piece not accepted
    have hcount : (accepted board steps).length = sent.length := by
      simpa using congrArg List.length h
    refine eq_of_sublist_of_flatten_length (accepted_sublist board steps)
      (fun piece hpiece => (cut.size piece hpiece).1) ?_
    rw [hstream, flatten_length_of_forall hsent,
      flatten_length_of_forall fun piece hpiece => accepted_size hpiece, hcount, List.length_map]
  · intro h
    have hpieces : pieces steps = sent.map (·.bytes) :=
      eq_of_flatten_of_width (by decide : 0 < sizeofRtPeerEvent)
        (fun piece hpiece => accepted_size (h ▸ hpiece)) hsent hstream
    rw [h, hpieces, List.map_map]
    rfl

/-- A forwarder that has just started. -/
def receiver : Routing := rtInitForwarder .north

/-- A handshake and an update, sent one after the other. -/
def twoMessages : List PeerMessage :=
  [.ofEvent (.handshake ⟨Network.zero, ⟨0x0a200000#32, 0xffe00000#32⟩, 1⟩),
    .ofEvent (.updateDtr ⟨2⟩)]

theorem peerFraming_whole :
    (accepted receiver (twoMessages.map fun m => .received m.bytes)).map .decode =
      twoMessages.map (·.event) := by
  refine (peerFraming_iff receiver twoMessages _ ⟨?_, ?_⟩).mpr ?_
  · simp [pieces, written_eq, twoMessages]
  · simp [pieces, twoMessages, PeerMessage.ofEvent, sizeofRtPeerEvent, bufferSize]
  · refine ⟨⟨PeerMessage.size _, by decide⟩, ⟨⟨PeerMessage.size _, ?_⟩, trivial⟩⟩
    simp [onReceived, onPeerMessage, queuePeerMessage, PeerMessage.ofEvent, receiver,
      rtInitForwarder, rtCreate, maxPeerEventQueued]

/-- Two messages that one `recv` returns together are both dropped. -/
theorem peerFraming_merged :
    ¬ ∀ (board : Routing) (sent : List PeerMessage) (steps : List ReceiverStep),
      Cut (written sent) (pieces steps) →
      (accepted board steps).map .decode = sent.map (·.event) := by
  intro h
  have hcut : Cut (written twoMessages) (pieces [.received (written twoMessages)]) := by
    refine ⟨by simp [pieces], ?_⟩
    simp [pieces, written_eq, twoMessages, PeerMessage.ofEvent, sizeofRtPeerEvent, bufferSize]
  have hsame := h receiver twoMessages [.received (written twoMessages)] hcut
  have hdropped : accepted receiver [.received (written twoMessages)] = [] := by
    have hlen : (written twoMessages).length ≠ sizeofRtPeerEvent := by
      simp [written_eq, twoMessages, PeerMessage.ofEvent, sizeofRtPeerEvent]
    have hno : (onReceived receiver (written twoMessages)).2 = false := by
      rw [← Bool.not_eq_true, onReceived_accepts]
      exact fun haccept => hlen haccept.1
    simp [accepted, hno]
  rw [hdropped] at hsame
  simp [twoMessages] at hsame

end I4A
