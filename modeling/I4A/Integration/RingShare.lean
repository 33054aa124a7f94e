import I4A.Core.Checked
import I4A.RingLink.Broadcast
import I4A.RingLink.Circulation

/-! # The components of a node on one ring

`ring_share.c`, and the queue of `callbacks.c` between the ring and it. A component's message
passes four buffers: the one of `ring_share_t`, that of the payload, the data of a `message_t` and
the queue's copy of it.
-/

namespace I4A

namespace RingShare

/-- `RS_MAX_BROADCAST_LEN`, `RS_MAX_COMPONENTS` and `MAX_MESSAGE_SIZE`. -/
abbrev rsMaxBroadcastLen : Nat := 512
abbrev rsMaxComponents : Nat := 10
abbrev maxMessageSize : Nat := 512

/-- `sizeof(message_t)`: the data and, behind it, a 16-bit length. -/
abbrev sizeofMessage : Nat := maxMessageSize + 2

/-! ## Copies -/

/-- A copy of `length` bytes into a buffer that has room for `capacity`. -/
structure Copy where
  capacity : Nat
  length : Nat
  deriving DecidableEq

/-- The copy ends inside its buffer. -/
def Copy.Fits (copy : Copy) : Prop := copy.length ≤ copy.capacity

/-- `memcpy` into a buffer of `capacity` bytes. `memory` is what lies from the start of the buffer
to the end of the object that holds it, so that a copy too long runs over the next fields. -/
def memcpy (capacity : Nat) (memory src : List UInt8) : List UInt8 × Copy :=
  (src ++ memory.drop src.length, ⟨capacity, src.length⟩)

/-! ## ring_share.c -/

/-- What `rs_broadcast` does with its buffer: the bytes it hands to
`sb_broadcast_to_siblings`, or `none` for a message that is too long. -/
def rsBroadcast (buffer : List UInt8) (component : UInt8) (msg : List UInt8) :
    Option (List UInt8 × Copy) :=
  if rsMaxBroadcastLen < msg.length then none
  else
    let copied := memcpy rsMaxBroadcastLen (buffer.drop 1) msg
    some ((component :: copied.1).take (msg.length + 1), copied.2)

/-- A registered callback, called with the memory its message starts and with a length. -/
abbrev RingCallback (Result : Type) := List UInt8 → UInt16 → Result

/-- `on_sibling_message`; `os_panic` logs, and the two conditions it is called for return. -/
def rsOnSiblingMessage {Result : Type}
    (components : Vector (Option (RingCallback Result)) rsMaxComponents)
    (msg : List UInt8) (len : UInt16) : Checked (Option Result) :=
  if len = 0 then .ok none
  else
    let componentId := (msg.getD 0 0).toNat
    if rsMaxComponents ≤ componentId then .ok none
    else do
      let callback ← Checked.load components componentId
      return callback.map fun callback => callback (msg.drop 1) (len - 1)

/-! ## callbacks.c -/

/-- The two bytes of `m.length`. -/
def lengthBytes (len : UInt16) : List UInt8 :=
  [UInt8.ofNat len.toNat, UInt8.ofNat (len.toNat / 256)]

def lengthOfBytes (low high : UInt8) : UInt16 := UInt16.ofNat (low.toNat + 256 * high.toNat)

/-- `node_on_sibling_message`: the `message_t` it puts into the queue, as bytes. `stack` is what
the local variable held before. -/
def nodeOnSiblingMessage (stack : List UInt8) (message : SiblingMessage) :
    List UInt8 × List Copy :=
  let copied := memcpy maxMessageSize stack message.bytes
  let item := copied.1.take maxMessageSize ++ lengthBytes message.len ++
    copied.1.drop sizeofMessage
  -- `xQueueSend` copies the item into a slot of its size
  (item, [copied.2, ⟨sizeofMessage, item.length⟩])

/-- `sibling_message_task`: the call it makes for an item of the queue. -/
def siblingMessageTask {Result : Type} (callback : RingCallback Result) (item : List UInt8) :
    Result :=
  callback item (lengthOfBytes (item.getD maxMessageSize 0) (item.getD (maxMessageSize + 1) 0))

/-! ## From `rs_broadcast` to the callbacks -/

/-- A call of the callback that component `component` registered. -/
structure RingCall where
  component : Fin rsMaxComponents
  msg : List UInt8
  len : UInt16
  deriving DecidableEq

/-- The table of a board whose callbacks record their calls. -/
def recordingComponents (registered : Fin rsMaxComponents → Bool) :
    Vector (Option (RingCallback RingCall)) rsMaxComponents :=
  Vector.ofFn fun component =>
    if registered component then some fun msg len => ⟨component, msg.take len.toNat, len⟩ else none

/-- What a board does with a message of the ring: the callback it calls, and the copies. -/
def handOver (registered : Fin rsMaxComponents → Bool) (stack : List UInt8)
    (message : SiblingMessage) : Checked (Option RingCall) × List Copy :=
  let queued := nodeOnSiblingMessage stack message
  (siblingMessageTask (rsOnSiblingMessage (recordingComponents registered)) queued.1, queued.2)

/-- The message_t of every board, before anything is copied into it. -/
abbrev Stacks (n : Nat) := Fin n → Vector UInt8 sizeofMessage

section Ring

variable {n : Nat} (registered : Fin n → Fin rsMaxComponents → Bool) (stackOf : Stacks n)

/-- What board `i` has done with the messages that the ring gave it. -/
def handedOver (t : Circulation n) (i : Fin n) : List (Checked (Option RingCall) × List Copy) :=
  (t.messages.filter (·.1 = i)).map fun message =>
    handOver (registered i) (stackOf i).toList message.2

/-- Every copy fits, and every sibling makes one call: that of the component's callback, if the
board has registered one, with the message as it was broadcast. -/
structure ArrivesIntact (origin : Fin n) (component : Fin rsMaxComponents) (msg : List UInt8)
    (sent : List Copy) (t : Circulation n) : Prop where
  sent_fit : ∀ copy ∈ sent, copy.Fits
  received_fit : ∀ i, ∀ result ∈ handedOver registered stackOf t i, ∀ copy ∈ result.2, copy.Fits
  calls : ∀ i, i ≠ origin → (handedOver registered stackOf t i).map Prod.fst =
    [.ok (if registered i component then some ⟨component, msg, UInt16.ofNat msg.length⟩ else none)]

end Ring

/-! ## One board -/

theorem rsBroadcast_of_le (buffer : List UInt8) (component : UInt8) {msg : List UInt8}
    (h : msg.length ≤ rsMaxBroadcastLen) :
    rsBroadcast buffer component msg =
      some (component :: msg, ⟨rsMaxBroadcastLen, msg.length⟩) := by
  have htake : (component :: (msg ++ (buffer.drop 1).drop msg.length)).take (msg.length + 1) =
      component :: msg := by
    rw [List.take_succ_cons, List.take_left]
  rw [rsBroadcast, if_neg (by omega)]
  simp only [memcpy, htake]

theorem lengthOfBytes_lengthBytes (len : UInt16) :
    lengthOfBytes (UInt8.ofNat len.toNat) (UInt8.ofNat (len.toNat / 256)) = len := by
  have hlt : len.toNat < 2 ^ 16 := len.toNat_lt
  have hsum : (UInt8.ofNat len.toNat).toNat + 256 * (UInt8.ofNat (len.toNat / 256)).toNat =
      len.toNat := by
    rw [UInt8.toNat_ofNat', UInt8.toNat_ofNat']
    omega
  rw [lengthOfBytes, hsum, UInt16.ofNat_toNat]

/-- The queued item of a frame: its first 512 bytes, and the length over whatever follows. -/
theorem nodeOnSiblingMessage_eq {stack bytes : List UInt8} (hstack : stack.length = sizeofMessage)
    (h : bytes.length ≤ sizeofMessage) (len : UInt16) :
    nodeOnSiblingMessage stack ⟨bytes, len⟩ =
      ((bytes ++ stack.drop bytes.length).take maxMessageSize ++ lengthBytes len,
        [⟨maxMessageSize, bytes.length⟩, ⟨sizeofMessage, sizeofMessage⟩]) := by
  have hlen : (bytes ++ stack.drop bytes.length).length = sizeofMessage := by
    rw [List.length_append, List.length_drop, hstack]
    omega
  have hdrop : (bytes ++ stack.drop bytes.length).drop sizeofMessage = [] :=
    List.drop_of_length_le (Nat.le_of_eq hlen)
  have hitem : ((bytes ++ stack.drop bytes.length).take maxMessageSize ++ lengthBytes len).length =
      sizeofMessage := by
    rw [List.length_append, List.length_take, hlen]
    rfl
  simp only [nodeOnSiblingMessage, memcpy, hdrop, List.append_nil, hitem]

theorem siblingMessageTask_item {Result : Type} (callback : RingCallback Result)
    {data : List UInt8} (hdata : data.length = maxMessageSize) (len : UInt16) :
    siblingMessageTask callback (data ++ lengthBytes len) =
      callback (data ++ lengthBytes len) len := by
  have hlow : (data ++ lengthBytes len).getD maxMessageSize 0 = UInt8.ofNat len.toNat := by
    rw [List.getD_eq_getElem?_getD, List.getElem?_append_right (Nat.le_of_eq hdata), hdata]
    rfl
  have hhigh : (data ++ lengthBytes len).getD (maxMessageSize + 1) 0 =
      UInt8.ofNat (len.toNat / 256) := by
    rw [List.getD_eq_getElem?_getD, List.getElem?_append_right (by omega), hdata]
    rfl
  rw [siblingMessageTask, hlow, hhigh, lengthOfBytes_lengthBytes]

/-- A message for a component: its callback gets what follows the id. -/
theorem rsOnSiblingMessage_recording (registered : Fin rsMaxComponents → Bool)
    (component : Fin rsMaxComponents) (rest : List UInt8) {len : UInt16} (hlen : len ≠ 0) :
    rsOnSiblingMessage (recordingComponents registered) (UInt8.ofNat component.val :: rest) len =
      .ok (if registered component then
        some ⟨component, rest.take (len - 1).toNat, len - 1⟩ else none) := by
  have hid : (UInt8.ofNat component.val).toNat = component.val := by
    rw [UInt8.toNat_ofNat']
    exact Nat.mod_eq_of_lt (Nat.lt_trans component.isLt (by decide))
  have hload : Checked.load (recordingComponents registered) component.val =
      .ok (if registered component then
        some fun msg len => ⟨component, msg.take len.toNat, len⟩ else none) := by
    rw [Checked.load_of_lt _ component.isLt, recordingComponents, Vector.getElem_ofFn]
  rw [rsOnSiblingMessage, if_neg hlen, List.getD_cons_zero, hid,
    if_neg (Nat.not_le.mpr component.isLt), hload]
  cases registered component <;> rfl

/-- What is left of a message behind the id, in the data of a `message_t` and the length. -/
theorem take_item (component : UInt8) {msg after : List UInt8}
    (h : msg.length ≤ rsMaxBroadcastLen) :
    (((component :: msg ++ after).take maxMessageSize ++
        lengthBytes (UInt16.ofNat (msg.length + 1))).drop 1).take msg.length =
      if msg.length = rsMaxBroadcastLen then msg.dropLast ++ [1] else msg := by
  have hle : msg.length ≤ 512 := h
  rw [List.cons_append, List.take_succ_cons, List.cons_append, List.drop_one, List.tail_cons]
  split
  · rename_i hfull
    have hfull' : msg.length = 512 := hfull
    have htaken : (msg ++ after).take 511 = msg.take 511 :=
      List.take_append_of_le_length (by omega)
    have hlength : (msg.take 511).length = 511 := by
      rw [List.length_take]
      omega
    rw [htaken, hfull', List.dropLast_eq_take, hfull', List.take_append, hlength,
      List.take_of_length_le (by omega)]
    rfl
  · rename_i hnot
    have hlt : msg.length ≤ 511 := Nat.le_of_lt_succ (Nat.lt_of_le_of_ne hle hnot)
    rw [List.take_append_of_le_length (by rw [List.length_take, List.length_append]; omega),
      List.take_take, Nat.min_eq_left hlt, List.take_left]

/-- What a board makes of a component's frame: 512 bytes of message are one too many for
`message_t`, and the low byte of the length stands in the place of the last one. -/
theorem handOver_frame (registered : Fin rsMaxComponents → Bool) {stack : List UInt8}
    (hstack : stack.length = sizeofMessage) (component : Fin rsMaxComponents) {msg : List UInt8}
    (h : msg.length ≤ rsMaxBroadcastLen) :
    handOver registered stack
        ⟨UInt8.ofNat component.val :: msg, UInt16.ofNat (msg.length + 1)⟩ =
      (.ok (if registered component then
          some ⟨component, if msg.length = rsMaxBroadcastLen then msg.dropLast ++ [1] else msg,
            UInt16.ofNat msg.length⟩
        else none),
        [⟨maxMessageSize, msg.length + 1⟩, ⟨sizeofMessage, sizeofMessage⟩]) := by
  have hle : msg.length ≤ 512 := h
  have hstack' : stack.length = 514 := hstack
  have hlen : UInt16.ofNat (msg.length + 1) ≠ 0 := by
    intro hzero
    have hval := congrArg UInt16.toNat hzero
    rw [UInt16.toNat_ofNat', UInt16.toNat_zero] at hval
    omega
  have hsub : UInt16.ofNat (msg.length + 1) - 1 = UInt16.ofNat msg.length := by
    rw [UInt16.ofNat_add]
    simp
  have hmsg : (UInt16.ofNat msg.length).toNat = msg.length := by
    rw [UInt16.toNat_ofNat']
    omega
  let after := stack.drop (msg.length + 1)
  have hdata : ((UInt8.ofNat component.val :: msg ++ after).take maxMessageSize).length =
      maxMessageSize := by
    rw [List.length_take, List.length_append, List.length_drop, hstack', List.length_cons]
    show min 512 _ = 512
    omega
  have hfits : (UInt8.ofNat component.val :: msg).length ≤ sizeofMessage := by
    show msg.length + 1 ≤ 514
    omega
  have hitem := nodeOnSiblingMessage_eq hstack hfits (UInt16.ofNat (msg.length + 1))
  rw [handOver, hitem]
  simp only [List.length_cons]
  rw [siblingMessageTask_item _ hdata]
  have hhead : (UInt8.ofNat component.val :: msg ++ after).take maxMessageSize ++
      lengthBytes (UInt16.ofNat (msg.length + 1)) = UInt8.ofNat component.val ::
        (((UInt8.ofNat component.val :: msg ++ after).take maxMessageSize ++
          lengthBytes (UInt16.ofNat (msg.length + 1))).drop 1) := rfl
  rw [hhead, rsOnSiblingMessage_recording registered component _ hlen, hsub, hmsg,
    take_item _ h]

/-! ## The whole way -/

section Ring

variable {n : Nat} {registered : Fin n → Fin rsMaxComponents → Bool} {stackOf : Stacks n}

/-- Every sibling has handed over the one message that went round the ring. -/
theorem handedOver_sibling {t : Circulation n} {origin i : Fin n} {message : SiblingMessage}
    (messages : t.messages = (List.range (n - 1)).map fun j => (successor origin (j + 1), message))
    (other : i ≠ origin) :
    handedOver registered stackOf t i =
      [handOver (registered i) (stackOf i).toList message] := by
  rw [handedOver, messages, filter_successor other]
  rfl

theorem mem_handedOver {t : Circulation n} {origin i : Fin n} {message : SiblingMessage}
    (messages : t.messages = (List.range (n - 1)).map fun j => (successor origin (j + 1), message))
    {result : Checked (Option RingCall) × List Copy}
    (h : result ∈ handedOver registered stackOf t i) :
    result = handOver (registered i) (stackOf i).toList message := by
  rw [handedOver, messages] at h
  simp only [List.mem_map, List.mem_filter] at h
  obtain ⟨pair, ⟨⟨j, -, rfl⟩, -⟩, rfl⟩ := h
  rfl

/-- A frame that has gone round the ring has arrived intact if its message left room for the
component's id in a `message_t`. -/
theorem arrivesIntact_iff {t : Circulation n} (hn : 2 ≤ n) {origin : Fin n}
    {component : Fin rsMaxComponents} {msg : List UInt8} (accepted : msg.length ≤ rsMaxBroadcastLen)
    (messages : t.messages = (List.range (n - 1)).map fun j => (successor origin (j + 1),
      ⟨UInt8.ofNat component.val :: msg, UInt16.ofNat (msg.length + 1)⟩)) :
    ArrivesIntact registered stackOf origin component msg
        [⟨rsMaxBroadcastLen, msg.length⟩, ⟨ringLinkNetifMtu, msg.length + 1⟩] t ↔
      msg.length ≤ 511 := by
  have frame : ∀ i, handOver (registered i) (stackOf i).toList
      ⟨UInt8.ofNat component.val :: msg, UInt16.ofNat (msg.length + 1)⟩ = _ := fun i =>
    handOver_frame (registered i) (stackOf i).length_toList component accepted
  have hle : msg.length ≤ 512 := accepted
  constructor
  · intro intact
    have hzero : successor origin 0 = origin := successor_zero origin
    have other : successor origin 1 ≠ origin := by
      intro h
      have hsame := successor_injective (by omega) (by omega) (h.trans hzero.symm)
      omega
    have hfits := intact.received_fit (successor origin 1) _
      (by rw [handedOver_sibling messages other, frame]; exact List.mem_singleton.mpr rfl) _
      List.mem_cons_self
    have hlast : msg.length + 1 ≤ 512 := hfits
    omega
  · intro hshort
    have hfull : ¬ msg.length = 512 := by omega
    constructor
    · intro copy hcopy
      have hmtu : ringLinkNetifMtu = 1588 := rfl
      simp only [List.mem_cons, List.not_mem_nil, or_false] at hcopy
      rcases hcopy with rfl | rfl
      · exact accepted
      · show msg.length + 1 ≤ ringLinkNetifMtu
        omega
    · intro i result hresult copy hcopy
      rw [mem_handedOver messages hresult, frame] at hcopy
      simp only [List.mem_cons, List.not_mem_nil, or_false] at hcopy
      rcases hcopy with rfl | rfl
      · show msg.length + 1 ≤ 512
        omega
      · exact Nat.le_refl _
    · intro i other
      rw [handedOver_sibling messages other, List.map_singleton, frame, if_neg hfull]

end Ring

/-- The frame of a component's message goes round the ring, and every complete run has handed it
to each sibling. -/
theorem frame_circulates (espCrc32Le : BitVec 32 → List UInt8 → BitVec 32) {n : Nat}
    (hn : 2 ≤ n) (hback : n ≤ ringLinkPayloadTtl + 1) {configId : Fin n → UInt8}
    (distinct : Function.Injective configId) (broadcastTask : Fin n → Bool) (origin : Fin n)
    (waits : broadcastTask origin = true) (idCounter padding component : UInt8)
    {msg : List UInt8} (accepted : msg.length ≤ rsMaxBroadcastLen) :
    ∃ sent t,
      sendBroadcast espCrc32Le idCounter (configId origin) (UInt8.ofNat ringLinkPayloadTtl) padding
        (component :: msg) = some sent ∧
      (circulationMachine espCrc32Le configId broadcastTask).Reaches (.start origin sent) t ∧
      t.completed = [origin] ∧
      ∀ u, (circulationMachine espCrc32Le configId broadcastTask).Reaches (.start origin sent) u →
        u.completed ≠ [] →
        u.messages = (List.range (n - 1)).map fun j => (successor origin (j + 1),
          ⟨component :: msg, UInt16.ofNat (msg.length + 1)⟩) := by
  let p := broadcastPayload idCounter (configId origin) (UInt8.ofNat ringLinkPayloadTtl) padding
    (component :: msg)
  have hfits : (component :: msg).length ≤ ringLinkNetifMtu := by
    have hmtu : ringLinkNetifMtu = 1588 := rfl
    have hle : msg.length ≤ 512 := accepted
    rw [List.length_cons]
    omega
  have hsent : sendBroadcast espCrc32Le idCounter (configId origin)
      (UInt8.ofNat ringLinkPayloadTtl) padding (component :: msg) =
        some (p.aged espCrc32Le (UInt8.ofNat ringLinkPayloadTtl)) :=
    if_neg (Nat.not_lt.mpr hfits)
  have hmessage : ringLinkInternalProcess p =
      ⟨component :: msg, UInt16.ofNat (msg.length + 1)⟩ :=
    broadcastPayload_message _ _ _ _ hfits
  have httl : ringLinkPayloadTtl < 256 := by decide
  have hlast : (Circulation.after espCrc32Le origin p ringLinkPayloadTtl (n - 1)).step espCrc32Le
      configId broadcastTask = some (.returned espCrc32Le origin p ringLinkPayloadTtl) :=
    Circulation.step_back rfl rfl rfl waits hn hback
  refine ⟨_, .returned espCrc32Le origin p ringLinkPayloadTtl, hsent, ?_, rfl, ?_⟩
  · exact (Circulation.reaches_after rfl rfl httl distinct rfl (by omega) (by omega)).tail
      (l := ()) trivial hlast
  · intro u run completed
    rw [Circulation.eq_returned_of_completed rfl rfl httl distinct rfl waits hn hback run completed,
      ← hmessage]
    rfl

/-- What `rs_broadcast` accepts goes round the ring; once the broadcast is complete, it has arrived
intact on every sibling if and only if it is at most 511 bytes long. -/
theorem rsBroadcast_arrives_iff (espCrc32Le : BitVec 32 → List UInt8 → BitVec 32) {n : Nat}
    (hn : 2 ≤ n) (hback : n ≤ ringLinkPayloadTtl + 1) (configId : Fin n → UInt8)
    (distinct : Function.Injective configId) (broadcastTask : Fin n → Bool) (origin : Fin n)
    (waits : broadcastTask origin = true) (idCounter padding : UInt8)
    (buffer : Vector UInt8 (rsMaxBroadcastLen + 1))
    (registered : Fin n → Fin rsMaxComponents → Bool) (stackOf : Stacks n)
    (component : Fin rsMaxComponents) (msg : List UInt8)
    (accepted : msg.length ≤ rsMaxBroadcastLen) :
    ∃ frame copy sent t,
      rsBroadcast buffer.toList (UInt8.ofNat component.val) msg = some (frame, copy) ∧
      sendBroadcast espCrc32Le idCounter (configId origin) (UInt8.ofNat ringLinkPayloadTtl) padding
        frame = some sent ∧
      (circulationMachine espCrc32Le configId broadcastTask).Reaches (.start origin sent) t ∧
      t.completed = [origin] ∧
      ∀ u, (circulationMachine espCrc32Le configId broadcastTask).Reaches (.start origin sent) u →
        u.completed ≠ [] →
        (ArrivesIntact registered stackOf origin component msg
            [copy, ⟨ringLinkNetifMtu, frame.length⟩] u ↔ msg.length ≤ 511) := by
  obtain ⟨sent, t, hsent, run, completed, messages⟩ := frame_circulates espCrc32Le hn hback
    distinct broadcastTask origin waits idCounter padding (UInt8.ofNat component.val) accepted
  refine ⟨_, _, sent, t, rsBroadcast_of_le _ _ accepted, hsent, run, completed, ?_⟩
  intro u hu hcompleted
  exact arrivesIntact_iff hn accepted (messages u hu hcompleted)

/-- Three bytes for the routing component arrive on a node of five boards. -/
theorem rsBroadcast_arrives_short : ∃ t : Circulation 5, t.completed = [0] ∧
    ArrivesIntact (fun _ _ => true) (fun _ => .replicate _ 0) 0 1 [7, 8, 9]
      [⟨rsMaxBroadcastLen, 3⟩, ⟨ringLinkNetifMtu, 4⟩] t := by
  obtain ⟨frame, copy, sent, t, hframe, -, run, completed, intact⟩ :=
    rsBroadcast_arrives_iff (fun _ _ => 0) (by decide : 2 ≤ 5) (by decide)
      (fun i => UInt8.ofNat i.val) fiveIds_injective (fun _ => true) 0 rfl 0 0 (.replicate _ 0)
      (fun _ _ => true) (fun _ => .replicate _ 0) 1 [7, 8, 9] (by decide)
  rw [rsBroadcast_of_le _ _ (by decide)] at hframe
  cases hframe
  exact ⟨t, completed, (intact t run (by simp [completed])).mpr (by decide)⟩

/-- 512 bytes are accepted, go round, run over the data of every sibling's `message_t` and arrive
with another last byte. -/
theorem rsBroadcast_full_corrupted : ∃ sent, ∃ t : Circulation 5,
    rsBroadcast (List.replicate 513 0) 1 (List.replicate 512 0) =
      some (1 :: List.replicate 512 0, ⟨512, 512⟩) ∧
    sendBroadcast (fun _ _ => 0) 0 0 (UInt8.ofNat ringLinkPayloadTtl) 0
      (1 :: List.replicate 512 0) = some sent ∧
    (circulationMachine (fun _ _ => 0) (fun i => UInt8.ofNat i.val) fun _ => true).Reaches
      (.start 0 sent) t ∧
    t.completed = [0] ∧
    handedOver (fun _ _ => true) (fun _ => .replicate _ 0) t 1 =
      [(.ok (some ⟨1, List.replicate 511 0 ++ [1], 512⟩), [⟨512, 513⟩, ⟨514, 514⟩])] ∧
    ¬ ArrivesIntact (fun _ _ => true) (fun _ => .replicate _ 0) 0 1 (List.replicate 512 0)
      [⟨rsMaxBroadcastLen, 512⟩, ⟨ringLinkNetifMtu, 513⟩] t := by
  have hlength : (List.replicate 512 (0 : UInt8)).length = 512 := List.length_replicate
  obtain ⟨sent, t, hsent, run, completed, messages⟩ := frame_circulates (fun _ _ => 0)
    (by decide : 2 ≤ 5) (by decide) fiveIds_injective (fun _ => true) 0 rfl 0 0
    (UInt8.ofNat (1 : Fin rsMaxComponents).val) (Nat.le_of_eq hlength)
  have hmessages := messages t run (by simp [completed])
  refine ⟨sent, t, ?_, hsent, run, completed, ?_, ?_⟩
  · rw [rsBroadcast_of_le _ _ (Nat.le_of_eq hlength), hlength]
  · rw [handedOver_sibling hmessages (by decide),
      handOver_frame _ (Vector.length_toList) 1 (Nat.le_of_eq hlength), hlength, if_pos rfl,
      List.dropLast_replicate]
    rfl
  · intro intact
    have hshort := (arrivesIntact_iff (by decide) (Nat.le_of_eq hlength) hmessages).mp
      (by rw [hlength]; exact intact)
    omega

end RingShare

end I4A
