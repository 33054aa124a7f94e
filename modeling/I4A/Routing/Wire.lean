import I4A.Core.Words
import I4A.Routing.Dispatch

/-! # Peer events as bytes

A `rt_peer_event_t` as it lies in memory and is sent: the id and the union, in
little-endian words. A message is whatever fills as many bytes.
-/

namespace I4A

/-- The words of the id and of the union. -/
def peerEventWords : Nat := 33

/-- Read words one after the other. -/
def takeWords : Nat → List UInt8 → List (BitVec 32)
  | 0, _ => []
  | n + 1, bytes => (takeWord bytes).1 :: takeWords n (takeWord bytes).2

def networkWords (network : Network) : List (BitVec 32) := [network.addr, network.mask]

namespace RtPeerEvent

/-- `event_id`. -/
def eventId : RtPeerEvent → BitVec 32
  | .handshake _ => 1
  | .updateDtr _ => 2
  | .newGatewayRequest _ => 3
  | .newGatewayResponse _ => 4
  | .connected _ => 5
  | .lost _ => 6
  | .unknown id => id.val

/-- The member of the union that belongs to the id. -/
def payloadWords : RtPeerEvent → List (BitVec 32)
  | .handshake event =>
      networkWords event.externalNetwork ++ networkWords event.providedNetwork ++ [event.dtr]
  | .updateDtr event => [event.dtr]
  | .newGatewayRequest event => event.hagNetworks.toList.flatMap networkWords
  | .newGatewayResponse event => networkWords event.externalNetwork ++ [event.dtr]
  | .connected connection => networkWords connection
  | .lost connection => networkWords connection
  | .unknown _ => []

/-- The event in memory, with the rest of the union cleared. -/
def encode (event : RtPeerEvent) : List UInt8 :=
  (event.eventId :: event.payloadWords ++
    List.replicate (peerEventWords - 1 - event.payloadWords.length) 0).flatMap putWord

/-- The network that starts at word `i`. -/
def networkAt (words : List (BitVec 32)) (i : Nat) : Network :=
  ⟨words.getD i 0, words.getD (i + 1) 0⟩

theorem zero_unknown : (0 : BitVec 32) = 0 ∨ 6 < (0 : BitVec 32).toNat := .inl rfl

/-- The event that the switch finds in the words. -/
def ofWords (words : List (BitVec 32)) : RtPeerEvent :=
  let id := words.getD 0 0
  if id = 1 then .handshake ⟨networkAt words 1, networkAt words 3, words.getD 5 0⟩
  else if id = 2 then .updateDtr ⟨words.getD 1 0⟩
  else if id = 3 then .newGatewayRequest ⟨Vector.ofFn fun i => networkAt words (2 * i + 1)⟩
  else if id = 4 then .newGatewayResponse ⟨networkAt words 1, words.getD 3 0⟩
  else if id = 5 then .connected (networkAt words 1)
  else if id = 6 then .lost (networkAt words 1)
  else if h : id = 0 ∨ 6 < id.toNat then .unknown ⟨id, h⟩
  else .unknown ⟨0, zero_unknown⟩

def decode (bytes : List UInt8) : RtPeerEvent := ofWords (takeWords peerEventWords bytes)

end RtPeerEvent

/-- A message of the size that `on_peer_message` expects. -/
structure PeerMessage where
  bytes : List UInt8
  size : bytes.length = sizeofRtPeerEvent

def PeerMessage.event (m : PeerMessage) : RtPeerEvent := .decode m.bytes

/-! ## Round trip -/

theorem takeWords_flatMap (words : List (BitVec 32)) (rest : List UInt8) :
    takeWords words.length (words.flatMap putWord ++ rest) = words := by
  induction words with
  | nil => rfl
  | cons w words ih =>
      rw [List.length_cons, takeWords, List.flatMap_cons, List.append_assoc, takeWord_putWord, ih]

theorem flatMap_putWord_length (words : List (BitVec 32)) :
    (words.flatMap putWord).length = 4 * words.length := by
  induction words with
  | nil => rfl
  | cons w words ih =>
      rw [List.flatMap_cons, List.length_append, putWord_length, ih, List.length_cons]
      omega

theorem flatMap_networkWords_length (networks : List Network) :
    (networks.flatMap networkWords).length = 2 * networks.length := by
  induction networks with
  | nil => rfl
  | cons network networks ih =>
      rw [List.flatMap_cons, List.length_append, ih, List.length_cons]
      simp [networkWords]
      omega

theorem networkAt_flatMap (networks : List Network) (first : BitVec 32) (rest : List (BitVec 32))
    (i : Nat) (hi : i < networks.length) :
    RtPeerEvent.networkAt (first :: networks.flatMap networkWords ++ rest) (2 * i + 1) =
      networks[i] := by
  induction networks generalizing first i with
  | nil => cases hi
  | cons network networks ih =>
      cases i with
      | zero => rfl
      | succ i =>
          have hrest := ih network.mask i (by simpa using hi)
          simp only [RtPeerEvent.networkAt, List.cons_append] at hrest ⊢
          simpa [networkWords, Nat.mul_add, List.getD_cons_succ] using hrest

namespace RtPeerEvent

theorem payloadWords_length_le (event : RtPeerEvent) :
    event.payloadWords.length ≤ peerEventWords - 1 := by
  cases event with
  | newGatewayRequest event =>
      rw [payloadWords, flatMap_networkWords_length, Vector.length_toList]
      exact Nat.le_refl _
  | _ => simp [payloadWords, networkWords, peerEventWords]

@[simp] theorem encode_length (event : RtPeerEvent) : event.encode.length = sizeofRtPeerEvent := by
  have hle := event.payloadWords_length_le
  rw [encode, flatMap_putWord_length]
  simp only [List.length_append, List.length_cons, List.length_replicate, peerEventWords,
    sizeofRtPeerEvent] at hle ⊢
  omega

/-- What is sent is what is read. -/
@[simp] theorem decode_encode (event : RtPeerEvent) : decode event.encode = event := by
  have hle := event.payloadWords_length_le
  have hwords : takeWords peerEventWords event.encode =
      event.eventId :: event.payloadWords ++
        List.replicate (peerEventWords - 1 - event.payloadWords.length) 0 := by
    have htake := takeWords_flatMap (event.eventId :: event.payloadWords ++
      List.replicate (peerEventWords - 1 - event.payloadWords.length) 0) []
    rw [List.append_nil] at htake
    rw [encode]
    refine Eq.trans ?_ htake
    congr 1
    simp only [List.length_append, List.length_cons, List.length_replicate, peerEventWords] at hle ⊢
    omega
  rw [decode, hwords]
  cases event with
  | newGatewayRequest event =>
      have hwords' : ∀ rest, ofWords (3 :: event.hagNetworks.toList.flatMap networkWords ++ rest) =
          .newGatewayRequest event := by
        intro rest
        rw [ofWords, List.cons_append, List.getD_cons_zero, if_neg (by decide),
          if_neg (by decide), if_pos rfl]
        congr 2
        ext1 i hi
        rw [Vector.getElem_ofFn, ← List.cons_append,
          networkAt_flatMap event.hagNetworks.toList _ _ i (by simpa using hi)]
        simp
      exact hwords' _
  | unknown id =>
      obtain ⟨id, hid⟩ := id
      have hother : id ≠ 1#32 ∧ id ≠ 2#32 ∧ id ≠ 3#32 ∧ id ≠ 4#32 ∧ id ≠ 5#32 ∧ id ≠ 6#32 := by
        refine ⟨?_, ?_, ?_, ?_, ?_, ?_⟩ <;>
        · rintro rfl
          revert hid
          decide
      have hid' : id = 0#32 ∨ 6 < id.toNat := hid
      simp [ofWords, eventId, hother, hid']
  | _ => simp [ofWords, eventId, payloadWords, networkWords, networkAt]

end RtPeerEvent

/-- The message a board sends for an event. -/
def PeerMessage.ofEvent (event : RtPeerEvent) : PeerMessage := ⟨event.encode, event.encode_length⟩

@[simp] theorem PeerMessage.event_ofEvent (event : RtPeerEvent) :
    (PeerMessage.ofEvent event).event = event := event.decode_encode

end I4A
