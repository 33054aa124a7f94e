import I4A.Spi.Receive

/-! # IP packets over a link of the ring

`ring_link_netif_tx.c` and `ring_link_netif_rx.c`: the output functions of a board's two ring
interfaces, the SPI link to the next board, and what that board gives to its IP stack. The link also
carries the messages between the boards of the node, and it may lose or garble a frame. lwIP and
esp-netif are outside: a packet is the bytes of a `pbuf`, and an allocation fails when it fails.
-/

namespace I4A

/-- `IP_HLEN` of lwIP. -/
def ipHlen : Nat := 20

/-- `IPH_V` and `lwip_ntohs(IPH_LEN)` of a header. -/
def iphV (header : List UInt8) : UInt8 := header.getD 0 0 >>> 4

def iphLen (header : List UInt8) : Nat := (header.getD 2 0).toNat * 256 + (header.getD 3 0).toNat

/-- `(IPH_V(iphdr) == 4) || (IPH_V(iphdr) == 6)`. -/
def isIpHeader (header : List UInt8) : Bool := iphV header = 4 ∨ iphV header = 6

/-- A `struct pbuf` and those it is chained to; the header is in the first one. -/
structure Pbuf where
  payload : List UInt8
  next : List (List UInt8)
  header : payload ≠ []

/-- What `pbuf_copy` copies. -/
def Pbuf.contents (p : Pbuf) : List UInt8 := p.payload ++ p.next.flatten

/-- The two interfaces, each with its `s_id_counter`. -/
inductive RingLinkNetif where
  | tx | rx
  deriving DecidableEq

/-- The payload of `esp_netif_ring_link_driver_transmit`. -/
def netifPayload (idCounter configId padding : UInt8) (packet : List UInt8) : RingLinkPayload where
  id := idCounter
  bufferType := ringLinkPayloadTypeEspNetif
  len := UInt16.ofNat packet.length
  ttl := 4
  srcId := configId
  dstId := configIdAny
  buffer := Vector.ofFn fun i => packet.getD i 0
  padding := padding
  crc32 := 0

section Netif

variable (espCrc32Le : BitVec 32 → List UInt8 → BitVec 32)

/-- `esp_netif_ring_link_driver_transmit` of both interfaces: the counter and the frame. -/
def espNetifRingLinkDriverTransmit (idCounter configId padding : UInt8) (packet : List UInt8) :
    UInt8 × Option RingLinkPayload :=
  (idCounter + 1,
    if ringLinkNetifMtu < packet.length then none
    else some (ringLinkLowlevelTransmitPayload espCrc32Le
      (netifPayload idCounter configId padding packet)))

/-- `linkoutput_function`; a chain is copied into one new `pbuf` if there is memory for it. -/
def linkoutputFunction (idCounter configId padding : UInt8) (allocated : Bool) (p : Pbuf) :
    UInt8 × Option RingLinkPayload :=
  if p.next = [] then espNetifRingLinkDriverTransmit espCrc32Le idCounter configId padding p.payload
  else if allocated then
    espNetifRingLinkDriverTransmit espCrc32Le idCounter configId padding p.contents
  else (idCounter, none)

/-- `output_function`. -/
def outputFunction (idCounter configId padding : UInt8) (allocated : Bool) (p : Pbuf) :
    UInt8 × Option RingLinkPayload :=
  if isIpHeader p.payload then linkoutputFunction espCrc32Le idCounter configId padding allocated p
  else (idCounter, none)

end Netif

/-- `ring_link_rx_netif_receive`: the bytes of the new `pbuf`. -/
def ringLinkRxNetifReceive (p : RingLinkPayload) : Option (List UInt8) :=
  let header := p.buffer.toList
  if p.len ≤ 0 ∨ p.len.toNat < ipHlen then none
  else if ¬ isIpHeader header then none
  else if p.len.toNat < iphLen header then none
  else some (header.take (iphLen header))

/-- `ring_link_netif_handler`. -/
def ringLinkNetifHandler (configId : UInt8) (p : RingLinkPayload) : Option (List UInt8) :=
  if p.isForDevice configId then ringLinkRxNetifReceive p else none

/-! ## A link -/

/-- What becomes of a frame: it is carried to the next board, the next board gets something else
with a wrong checksum, or it gets nothing. -/
inductive Wire where
  | carried
  | garbled (p : RingLinkPayload)
  | lost

/-- A board that sends, and the next one that receives. -/
structure NetifLink where
  /-- `s_id_counter_tx` and `s_id_counter_rx` of the first board. -/
  idCounter : RingLinkNetif → UInt8
  ring : SpiRing × SpiLog
  /-- History: the packets given to the output functions. -/
  output : List (List UInt8)
  /-- History: the transmitted payloads of other types. -/
  internal : List RingLinkPayload
  /-- History: the packets that `esp_netif_receive` has taken. -/
  received : List (List UInt8)

inductive NetifLinkLabel where
  | output (netif : RingLinkNetif) (p : Pbuf) (padding : UInt8) (allocated : Bool) (wire : Wire)
  /-- The first board transmits a payload for `ring_link_internal.c`. -/
  | transmit (p : RingLinkPayload) (wire : Wire)
  /-- A task of the second board, but for its netif handler and the frames of the first. -/
  | task (label : SpiLabel)
  /-- `ring_link_netif_handler` returns, and `esp_netif_receive` has taken its packet or not. -/
  | netifHandler (taken : Bool)

namespace NetifLink

variable (espCrc32Le : BitVec 32 → List UInt8 → BitVec 32)

def start (bufferPool : SpiBuffer → RingLinkPayload) : NetifLink where
  idCounter := fun _ => 0
  ring := (SpiRing.init bufferPool, SpiLog.empty)
  output := []
  internal := []
  received := []

/-- The second board takes a step of its own. -/
def advance (t : NetifLink) (label : SpiLabel) : Option NetifLink :=
  ((receivingMachine espCrc32Le).step t.ring label).map fun ring => { t with ring := ring }

/-- The transaction of a frame. -/
def carry (t : NetifLink) (p : RingLinkPayload) : Wire → Option NetifLink
  | .carried => t.advance espCrc32Le (.transaction p)
  | .garbled p' =>
      if ringLinkComputeCrc32 espCrc32Le p' ≠ p'.crc32 then t.advance espCrc32Le (.transaction p')
      else none
  | .lost => some t

def step (configId configId' : UInt8) (t : NetifLink) : NetifLinkLabel → Option NetifLink
  | .output netif p padding allocated wire =>
      let result :=
        outputFunction espCrc32Le (t.idCounter netif) configId padding allocated p
      let t' := { t with
        idCounter := Function.update t.idCounter netif result.1
        output := t.output ++ [p.contents] }
      match result.2 with
      | some frame => t'.carry espCrc32Le frame wire
      | none => some t'
  | .transmit p wire =>
      let frame := ringLinkLowlevelTransmitPayload espCrc32Le p
      if p.isInternal then { t with internal := t.internal ++ [frame] }.carry espCrc32Le frame wire
      else none
  | .task label =>
      match label with
      | .transaction _ | .netifFrees _ => none
      | _ => t.advance espCrc32Le label
  | .netifHandler taken =>
      match t.ring.1.netifHandler with
      | some b =>
          let p := t.ring.1.bufferPool b
          let packet := ringLinkNetifHandler configId' p
          { t with received := t.received ++ (if taken then packet.toList else []) }.advance
            espCrc32Le (.netifFrees p)
      | none => none

end NetifLink

def netifLinkMachine (espCrc32Le : BitVec 32 → List UInt8 → BitVec 32)
    (configId configId' : UInt8) : Machine NetifLink NetifLinkLabel :=
  ⟨fun t label => t.step espCrc32Le configId configId' label⟩

/-! ## One packet -/

/-- What the next board's IP stack gets of a packet. -/
def ringLinkPacket (packet : List UInt8) : Option (List UInt8) :=
  if ipHlen ≤ packet.length ∧ packet.length ≤ ringLinkNetifMtu ∧ isIpHeader packet ∧
      iphLen packet ≤ packet.length then
    some (packet.take (iphLen packet))
  else none

/-- A packet with no more and no less than its header says. -/
structure IpPacket (packet : List UInt8) : Prop where
  header : isIpHeader packet = true
  long : ipHlen ≤ packet.length
  short : packet.length ≤ ringLinkNetifMtu
  total : iphLen packet = packet.length

theorem ringLinkPacket_eq_some_iff (packet : List UInt8) :
    ringLinkPacket packet = some packet ↔ IpPacket packet := by
  rw [ringLinkPacket]
  constructor
  · intro h
    split at h
    next hok =>
      obtain ⟨hlong, hshort, hheader, hle⟩ := hok
      refine ⟨hheader, hlong, hshort, ?_⟩
      have hlen := congrArg List.length (Option.some.inj h)
      rw [List.length_take] at hlen
      omega
    next => cases h
  · rintro ⟨hheader, hlong, hshort, htotal⟩
    rw [if_pos ⟨hlong, hshort, hheader, htotal.le⟩, htotal, List.take_length]

section Netif

variable {espCrc32Le : BitVec 32 → List UInt8 → BitVec 32} {p : Pbuf} {packet : List UInt8}
  {idCounter configId configId' padding : UInt8} {allocated : Bool} {frame : RingLinkPayload}

theorem buffer_getD {mtu : Nat} {i : Nat} (hi : i < mtu) :
    (Vector.ofFn fun j : Fin mtu => packet.getD j 0).toList.getD i 0 = packet.getD i 0 := by
  rw [List.getD_eq_getElem?_getD, Vector.getElem?_toList, Vector.getElem?_ofFn, dif_pos hi,
    Option.getD_some]

/-- The frame of a packet is opened as the packet. -/
theorem netifPayload_received (fits : packet.length ≤ ringLinkNetifMtu)
    (hheader : isIpHeader packet = true) :
    ringLinkNetifHandler configId' (ringLinkLowlevelTransmitPayload espCrc32Le
      (netifPayload idCounter configId padding packet)) = ringLinkPacket packet := by
  have hlen : (UInt16.ofNat packet.length).toNat = packet.length := by
    have hfits : packet.length ≤ 1588 := fits
    rw [UInt16.toNat_ofNat']
    omega
  have hv : iphV (Vector.ofFn fun i : Fin ringLinkNetifMtu => packet.getD i 0).toList =
      iphV packet := by
    rw [iphV, iphV, buffer_getD (by decide)]
  have htotal : iphLen (Vector.ofFn fun i : Fin ringLinkNetifMtu => packet.getD i 0).toList =
      iphLen packet := by
    rw [iphLen, iphLen, buffer_getD (by decide), buffer_getD (by decide)]
  have hforDevice : (ringLinkLowlevelTransmitPayload espCrc32Le
      (netifPayload idCounter configId padding packet)).isForDevice configId' = true :=
    decide_eq_true (.inr rfl)
  have hheader' : decide (iphV packet = 4 ∨ iphV packet = 6) = true := hheader
  rw [ringLinkNetifHandler, if_pos hforDevice, ringLinkRxNetifReceive, ringLinkPacket]
  simp only [ringLinkLowlevelTransmitPayload, netifPayload, isIpHeader, hv, htotal, hlen,
    hheader', not_true, if_false, true_and, fits]
  by_cases hlong : packet.length < ipHlen
  · rw [if_pos (.inr hlong), if_neg fun h => Nat.not_le.mpr hlong h.1]
  · have hpositive : ¬ UInt16.ofNat packet.length ≤ 0 := by
      rw [UInt16.le_iff_toNat_le, hlen]
      exact fun h => hlong (h.trans_lt (by decide))
    rw [if_neg (not_or.mpr ⟨hpositive, hlong⟩)]
    by_cases hle : iphLen packet ≤ packet.length
    · rw [if_neg (Nat.not_lt.mpr hle), if_pos ⟨Nat.not_lt.mp hlong, hle⟩]
      have htake := congrArg (List.take (iphLen packet)) (take_buffer fits)
      rwa [List.take_take, Nat.min_eq_left hle, ← Option.some_inj] at htake
    · rw [if_pos (Nat.not_le.mp hle), if_neg fun h => hle h.2]

theorem linkoutputFunction_eq (h : p.next = [] ∨ allocated = true) :
    linkoutputFunction espCrc32Le idCounter configId padding allocated p =
      espNetifRingLinkDriverTransmit espCrc32Le idCounter configId padding p.contents := by
  rw [linkoutputFunction]
  by_cases hnext : p.next = []
  · rw [if_pos hnext, Pbuf.contents, hnext, List.flatten_nil, List.append_nil]
  · rw [if_neg hnext, if_pos (h.resolve_left hnext)]

theorem isIpHeader_contents (p : Pbuf) : isIpHeader p.contents = isIpHeader p.payload := by
  obtain ⟨b, rest, hpayload⟩ := List.exists_cons_of_ne_nil p.header
  simp only [isIpHeader, iphV, Pbuf.contents, hpayload, List.cons_append, List.getD_cons_zero]

/-- The frame that the output functions make. -/
theorem outputFunction_some
    (h : (outputFunction espCrc32Le idCounter configId padding allocated p).2 = some frame) :
    p.contents.length ≤ ringLinkNetifMtu ∧ isIpHeader p.contents = true ∧
      frame = ringLinkLowlevelTransmitPayload espCrc32Le
        (netifPayload idCounter configId padding p.contents) := by
  rw [outputFunction] at h
  split at h
  next hheader =>
    by_cases hcopied : p.next = [] ∨ allocated = true
    · rw [linkoutputFunction_eq hcopied, espNetifRingLinkDriverTransmit] at h
      split at h
      · cases h
      next hfits =>
        exact ⟨Nat.not_lt.mp hfits, (isIpHeader_contents p).trans hheader, (Option.some.inj h).symm⟩
    · obtain ⟨hnext, hallocated⟩ := not_or.mp hcopied
      rw [linkoutputFunction, if_neg hnext, if_neg hallocated] at h
      cases h
  next => cases h

/-- What is not transmitted would not be received. -/
theorem outputFunction_none
    (h : (outputFunction espCrc32Le idCounter configId padding true p).2 = none) :
    ringLinkPacket p.contents = none := by
  rw [outputFunction] at h
  rw [ringLinkPacket, if_neg]
  rintro ⟨-, hfits, hheader, -⟩
  rw [if_pos ((isIpHeader_contents p).symm.trans hheader), linkoutputFunction_eq (.inr rfl),
    espNetifRingLinkDriverTransmit, if_neg (Nat.not_lt.mpr hfits)] at h
  cases h

theorem processPayload_transmitted (p : RingLinkPayload) :
    processPayload espCrc32Le (ringLinkLowlevelTransmitPayload espCrc32Le p) =
      if p.isInternal then some .internal else if p.isEspNetif then some .espNetif else none := by
  have hcrc : ringLinkComputeCrc32 espCrc32Le (ringLinkLowlevelTransmitPayload espCrc32Le p) =
      (ringLinkLowlevelTransmitPayload espCrc32Le p).crc32 := rfl
  rw [processPayload, if_neg (not_not.mpr hcrc)]
  rfl

theorem goesTo_netif (packet : List UInt8) (queue : RingLinkQueue) :
    SpiRing.goesTo espCrc32Le queue (ringLinkLowlevelTransmitPayload espCrc32Le
      (netifPayload idCounter configId padding packet)) = decide (queue = .espNetif) := by
  have hnot : (netifPayload idCounter configId padding packet).isInternal = false :=
    decide_eq_false (by show ¬ ringLinkPayloadTypeEspNetif = ringLinkPayloadTypeInternal; decide)
  have hnetif : (netifPayload idCounter configId padding packet).isEspNetif = true :=
    decide_eq_true rfl
  rw [SpiRing.goesTo, processPayload_transmitted, hnot, hnetif]
  cases queue <;> rfl

theorem goesTo_internal {p : RingLinkPayload} (h : p.isInternal = true) (queue : RingLinkQueue) :
    SpiRing.goesTo espCrc32Le queue (ringLinkLowlevelTransmitPayload espCrc32Le p) =
      decide (queue = .internal) := by
  rw [SpiRing.goesTo, processPayload_transmitted, h]
  cases queue <;> rfl

theorem goesTo_garbled (h : ringLinkComputeCrc32 espCrc32Le frame ≠ frame.crc32)
    (queue : RingLinkQueue) : SpiRing.goesTo espCrc32Le queue frame = false := by
  rw [SpiRing.goesTo, processPayload, if_pos h]
  rfl

end Netif

/-! ## One step of the link -/

/-- Nothing of a packet is lost in the step. -/
def NetifLinkLabel.lossless : NetifLinkLabel → Bool
  | .output _ _ _ allocated .carried => allocated
  | .output _ _ _ _ _ => false
  | .netifHandler taken => taken
  | _ => true

/-- What has gone into the link and what has come out. -/
structure NetifHistory where
  output : List (List UInt8)
  internal : List RingLinkPayload
  arrived : List RingLinkPayload
  /-- The payloads that the netif handler has had. -/
  handled : List RingLinkPayload
  received : List (List UInt8)

namespace NetifHistory

def empty : NetifHistory := ⟨[], [], [], [], []⟩

def append (first second : NetifHistory) : NetifHistory where
  output := first.output ++ second.output
  internal := first.internal ++ second.internal
  arrived := first.arrived ++ second.arrived
  handled := first.handled ++ second.handled
  received := first.received ++ second.received

variable (espCrc32Le : BitVec 32 → List UInt8 → BitVec 32) (configId' : UInt8)

/-- The packets in the frames that have arrived. -/
def packets (h : NetifHistory) : List (List UInt8) :=
  (h.arrived.filter (SpiRing.goesTo espCrc32Le .espNetif)).filterMap
    (ringLinkNetifHandler configId')

/-- The packets that the netif handler has had. -/
def opened (h : NetifHistory) : List (List UInt8) :=
  h.handled.filterMap (ringLinkNetifHandler configId')

/-- Nothing comes out that did not go in, or in another order. -/
structure InOrder (h : NetifHistory) : Prop where
  packets : (h.packets espCrc32Le configId').Sublist (h.output.filterMap ringLinkPacket)
  internal : (h.arrived.filter (SpiRing.goesTo espCrc32Le .internal)).Sublist h.internal
  received : h.received.Sublist (h.opened configId')

/-- And every packet comes out. -/
structure Whole (h : NetifHistory) : Prop where
  packets : h.packets espCrc32Le configId' = h.output.filterMap ringLinkPacket
  received : h.received = h.opened configId'

variable {espCrc32Le configId'} {first second : NetifHistory}

theorem packets_append : (first.append second).packets espCrc32Le configId' =
    first.packets espCrc32Le configId' ++ second.packets espCrc32Le configId' := by
  simp only [packets, append, List.filter_append, List.filterMap_append]

theorem InOrder.append (h : first.InOrder espCrc32Le configId')
    (h' : second.InOrder espCrc32Le configId') :
    (first.append second).InOrder espCrc32Le configId' where
  packets := by
    rw [packets_append, NetifHistory.append, List.filterMap_append]
    exact h.packets.append h'.packets
  internal := by
    rw [NetifHistory.append, List.filter_append]
    exact h.internal.append h'.internal
  received := by
    rw [opened, NetifHistory.append, List.filterMap_append]
    exact h.received.append h'.received

theorem Whole.append (h : first.Whole espCrc32Le configId')
    (h' : second.Whole espCrc32Le configId') :
    (first.append second).Whole espCrc32Le configId' where
  packets := by
    rw [packets_append, NetifHistory.append, List.filterMap_append, h.packets, h'.packets]
  received := by
    rw [opened, NetifHistory.append, List.filterMap_append, h.received, h'.received]
    rfl

end NetifHistory

namespace NetifLink

def history (t : NetifLink) : NetifHistory where
  output := t.output
  internal := t.internal
  arrived := t.ring.2.arrived
  handled := t.ring.2.handled .espNetif
  received := t.received

variable {espCrc32Le : BitVec 32 → List UInt8 → BitVec 32} {configId configId' : UInt8}
  {t t' u : NetifLink} {frame : RingLinkPayload} {label : SpiLabel} {wire : Wire}

theorem advance_eq (hs : t.advance espCrc32Le label = some u) :
    ∃ ring, t.ring.1.step espCrc32Le label = some ring ∧
      u = { t with ring := (ring, t.ring.1.note label t.ring.2) } := by
  obtain ⟨⟨ring, log⟩, hring, rfl⟩ := Option.map_eq_some_iff.mp hs
  obtain ⟨hstep, hlog⟩ := Machine.recording_step.mp hring
  change log = t.ring.1.note label t.ring.2 at hlog
  subst hlog
  exact ⟨ring, hstep, rfl⟩

theorem advance_receives (hs : t.advance espCrc32Le label = some u)
    (h : SpiRing.Receives espCrc32Le t.ring) : SpiRing.Receives espCrc32Le u.ring := by
  obtain ⟨ring, hring, rfl⟩ := Option.map_eq_some_iff.mp hs
  exact h.step hring

theorem carry_receives (hs : t.carry espCrc32Le frame wire = some u)
    (h : SpiRing.Receives espCrc32Le t.ring) : SpiRing.Receives espCrc32Le u.ring := by
  cases wire with
  | carried => exact advance_receives hs h
  | garbled p =>
      rw [carry] at hs
      split at hs
      · exact advance_receives hs h
      · cases hs
  | lost =>
      cases hs
      exact h

/-- A frame arrives as it is, or nothing that passes `process_payload` does. -/
theorem carry_history (hs : t.carry espCrc32Le frame wire = some u) :
    ∃ frames, u.history = { t.history with arrived := t.history.arrived ++ frames } ∧
      (frames = [frame] ∨ wire ≠ .carried ∧
        ∀ queue, frames.filter (SpiRing.goesTo espCrc32Le queue) = []) := by
  cases wire with
  | carried =>
      obtain ⟨ring, -, rfl⟩ := advance_eq hs
      exact ⟨[frame], rfl, .inl rfl⟩
  | garbled p =>
      rw [carry] at hs
      split at hs
      next hcrc =>
        obtain ⟨ring, -, rfl⟩ := advance_eq hs
        refine ⟨[p], rfl, .inr ⟨by simp, fun queue => ?_⟩⟩
        simp [goesTo_garbled hcrc queue]
      next => cases hs
  | lost =>
      cases hs
      refine ⟨[], ?_, .inr ⟨by simp, fun _ => rfl⟩⟩
      rw [List.append_nil]

theorem step_receives {label : NetifLinkLabel}
    (hs : t.step espCrc32Le configId configId' label = some u)
    (h : SpiRing.Receives espCrc32Le t.ring) : SpiRing.Receives espCrc32Le u.ring := by
  cases label with
  | output netif p padding allocated wire =>
      simp only [step] at hs
      split at hs
      · exact carry_receives hs h
      · cases hs
        exact h
  | transmit p wire =>
      simp only [step] at hs
      split at hs
      · exact carry_receives hs h
      · cases hs
  | task label =>
      simp only [step] at hs
      split at hs
      · cases hs
      · cases hs
      · exact advance_receives hs h
  | netifHandler taken =>
      simp only [step] at hs
      split at hs
      · exact advance_receives hs h
      · cases hs

theorem note_task (ring : SpiRing) (log : SpiLog) (hframe : ∀ p, label ≠ .transaction p)
    (hhandler : ∀ p, label ≠ .netifFrees p) :
    (ring.note label log).arrived = log.arrived ∧
      (ring.note label log).handled .espNetif = log.handled .espNetif := by
  cases label with
  | transaction p => exact absurd rfl (hframe p)
  | netifFrees p => exact absurd rfl (hhandler p)
  | internalFrees p =>
      rw [SpiRing.note, SpiRing.returns]
      split
      · exact ⟨rfl, SpiLog.handle_of_ne _ (by decide) _⟩
      · exact ⟨rfl, rfl⟩
  | _ => exact ⟨rfl, rfl⟩

theorem packet_whole {idCounter configId padding : UInt8} {packet : List UInt8}
    (hfits : packet.length ≤ ringLinkNetifMtu) (hheader : isIpHeader packet = true) :
    (⟨[packet], [], [ringLinkLowlevelTransmitPayload espCrc32Le
      (netifPayload idCounter configId padding packet)], [], []⟩ : NetifHistory).Whole espCrc32Le
        configId' where
  packets := by
    rw [NetifHistory.packets, List.filter_cons_of_pos (by rw [goesTo_netif]; rfl),
      List.filter_nil, List.filterMap_cons, List.filterMap_cons,
      netifPayload_received hfits hheader]
    rfl
  received := rfl

theorem packet_inOrder {idCounter configId padding : UInt8} {packet : List UInt8}
    {frames : List RingLinkPayload} (hfits : packet.length ≤ ringLinkNetifMtu)
    (hheader : isIpHeader packet = true)
    (hframes : frames = [ringLinkLowlevelTransmitPayload espCrc32Le
        (netifPayload idCounter configId padding packet)] ∨
      ∀ queue, frames.filter (SpiRing.goesTo espCrc32Le queue) = []) :
    (⟨[packet], [], frames, [], []⟩ : NetifHistory).InOrder espCrc32Le configId' := by
  rcases hframes with rfl | hnone
  · refine ⟨?_, ?_, .refl []⟩
    · rw [(packet_whole hfits hheader).packets]
    · simp [goesTo_netif]
  · refine ⟨?_, ?_, .refl []⟩
    · simp [NetifHistory.packets, hnone]
    · simp [hnone]

/-- What a step adds to the history. -/
theorem step_history {label : NetifLinkLabel}
    (hs : t.step espCrc32Le configId configId' label = some u) :
    ∃ added, u.history = t.history.append added ∧ added.InOrder espCrc32Le configId' ∧
      (label.lossless = true → added.Whole espCrc32Le configId') := by
  cases label with
  | output netif p padding allocated wire =>
      simp only [step] at hs
      split at hs
      next frame hframe =>
        obtain ⟨hfits, hheader, rfl⟩ := outputFunction_some hframe
        obtain ⟨frames, hhistory, hframes⟩ := carry_history hs
        refine ⟨⟨[p.contents], [], frames, [], []⟩, ?_, ?_, fun hlossless => ?_⟩
        · rw [hhistory]
          simp [history, NetifHistory.append]
        · exact packet_inOrder hfits hheader (hframes.imp id And.right)
        · have hcarried : wire = .carried := by
            cases wire <;> first | rfl | cases hlossless
          obtain rfl := hframes.resolve_right fun h => h.1 hcarried
          exact packet_whole hfits hheader
      next hnone =>
        cases hs
        refine ⟨⟨[p.contents], [], [], [], []⟩, ?_, ?_, fun hlossless => ?_⟩
        · simp [history, NetifHistory.append]
        · exact ⟨List.nil_sublist _, .refl [], .refl []⟩
        · have hallocated : allocated = true := by
            cases wire <;> first | exact hlossless | cases hlossless
          rw [hallocated] at hnone
          constructor
          · simp [NetifHistory.packets, outputFunction_none hnone]
          · rfl
  | transmit p wire =>
      simp only [step] at hs
      split at hs
      next hinternal =>
        obtain ⟨frames, hhistory, hframes⟩ := carry_history hs
        have hpackets : frames.filter (SpiRing.goesTo espCrc32Le .espNetif) = [] := by
          rcases hframes with rfl | ⟨-, hnone⟩
          · simp [goesTo_internal hinternal]
          · exact hnone _
        refine ⟨⟨[], [ringLinkLowlevelTransmitPayload espCrc32Le p], frames, [], []⟩, ?_, ?_, ?_⟩
        · rw [hhistory]
          simp [history, NetifHistory.append]
        · refine ⟨?_, ?_, .refl []⟩
          · simp [NetifHistory.packets, hpackets]
          · rcases hframes with rfl | ⟨-, hnone⟩
            · simp [goesTo_internal hinternal]
            · simp [hnone]
        · intro _
          constructor
          · simp [NetifHistory.packets, hpackets]
          · rfl
      next => cases hs
  | task label =>
      simp only [step] at hs
      split at hs
      · cases hs
      · cases hs
      next hframe hhandler =>
        obtain ⟨ring, -, rfl⟩ := advance_eq hs
        obtain ⟨harrived, hhandled⟩ := note_task t.ring.1 t.ring.2 (fun p h => hframe p h)
          fun p h => hhandler p h
        refine ⟨.empty, ?_, ?_, ?_⟩
        · simp [history, NetifHistory.append, NetifHistory.empty, harrived, hhandled]
        · exact ⟨.refl [], .refl [], .refl []⟩
        · exact fun _ => ⟨rfl, rfl⟩
  | netifHandler taken =>
      simp only [step] at hs
      split at hs
      next b hhandler =>
        obtain ⟨ring, -, rfl⟩ := advance_eq hs
        let p := t.ring.1.bufferPool b
        refine ⟨⟨[], [], [], [p],
          if taken then (ringLinkNetifHandler configId' p).toList else []⟩, ?_, ?_, ?_⟩
        · have hlog : t.ring.1.note (.netifFrees p) t.ring.2 = t.ring.2.handle .espNetif p := by
            simp [SpiRing.note, SpiRing.returns, SpiRing.handler, hhandler, p]
          simp only [history, NetifHistory.append, List.append_nil]
          rw [hlog, SpiLog.handle_self]
          rfl
        · refine ⟨.refl [], .refl [], ?_⟩
          simp only [NetifHistory.opened, List.filterMap_cons, List.filterMap_nil]
          cases taken with
          | true => cases ringLinkNetifHandler configId' p <;> exact .refl _
          | false => exact List.nil_sublist _
        · intro hlossless
          have htaken : taken = true := hlossless
          constructor
          · rfl
          · simp only [NetifHistory.opened, List.filterMap_cons, List.filterMap_nil, htaken,
              if_true]
            cases ringLinkNetifHandler configId' p <;> rfl
      next => cases hs

/-- What holds of the link after every step. -/
structure Inv (espCrc32Le : BitVec 32 → List UInt8 → BitVec 32) (configId' : UInt8)
    (t : NetifLink) : Prop where
  receives : SpiRing.Receives espCrc32Le t.ring
  inOrder : t.history.InOrder espCrc32Le configId'

theorem Inv.start (bufferPool : SpiBuffer → RingLinkPayload) :
    Inv espCrc32Le configId' (start bufferPool) where
  receives := SpiRing.init_receives bufferPool
  inOrder := ⟨.refl [], .refl [], .refl []⟩

theorem Inv.step {label : NetifLinkLabel} (h : Inv espCrc32Le configId' t)
    (hs : t.step espCrc32Le configId configId' label = some u) : Inv espCrc32Le configId' u := by
  obtain ⟨added, hhistory, hadded, -⟩ := step_history hs
  refine ⟨step_receives hs h.receives, ?_⟩
  rw [hhistory]
  exact h.inOrder.append hadded

theorem Inv.packets (h : Inv espCrc32Le configId' t) :
    t.history.packets espCrc32Le configId' = t.history.opened configId' ++
      (t.ring.1.waiting espCrc32Le .espNetif).filterMap (ringLinkNetifHandler configId') := by
  rw [NetifHistory.packets, NetifHistory.opened, ← List.filterMap_append]
  exact congrArg (List.filterMap (ringLinkNetifHandler configId')) (h.receives.inOrder .espNetif)

theorem Inv.received_sublist (h : Inv espCrc32Le configId' t) :
    t.received.Sublist (t.output.filterMap ringLinkPacket) := by
  have hopened : (t.history.opened configId').Sublist (t.history.packets espCrc32Le configId') := by
    rw [h.packets]
    exact List.sublist_append_left _ _
  exact (h.inOrder.received.trans hopened).trans h.inOrder.packets

theorem Inv.internal_sublist (h : Inv espCrc32Le configId' t) :
    (t.ring.2.handled .internal).Sublist t.internal := by
  refine List.Sublist.trans ?_ h.inOrder.internal
  change (t.ring.2.handled .internal).Sublist
    (t.ring.2.arrived.filter (SpiRing.goesTo espCrc32Le .internal))
  rw [h.receives.inOrder .internal]
  exact List.sublist_append_left _ _

end NetifLink

theorem filterMap_ringLinkPacket {packets : List (List UInt8)}
    (h : ∀ packet ∈ packets, IpPacket packet) : packets.filterMap ringLinkPacket = packets := by
  induction packets with
  | nil => rfl
  | cons packet rest ih =>
      rw [List.filterMap_cons,
        (ringLinkPacket_eq_some_iff packet).mpr (h packet List.mem_cons_self)]
      exact congrArg (packet :: ·) (ih fun p hp => h p (List.mem_cons_of_mem _ hp))

/-- Over a link that may lose frames, or garble them so that their checksum is wrong, and that
carries the messages of the boards as well, the packets that the second board's IP stack gets are
packets that the first one's has sent, in their order and none twice, and so are the messages.
Packets with the length that their header says are not changed. When nothing is lost, all packets
that the ring takes have come out or are on the way. -/
theorem ringLink_packets (espCrc32Le : BitVec 32 → List UInt8 → BitVec 32)
    (configId configId' : UInt8) (bufferPool : SpiBuffer → RingLinkPayload) (t : NetifLink)
    (run : (netifLinkMachine espCrc32Le configId configId').Reaches (.start bufferPool) t) :
    t.received.Sublist (t.output.filterMap ringLinkPacket) ∧
    (t.ring.2.handled .internal).Sublist t.internal ∧
    ((∀ packet ∈ t.output, IpPacket packet) → t.received.Sublist t.output) ∧
    ((netifLinkMachine espCrc32Le configId configId').Executes (fun _ l => l.lossless = true)
        (NetifLink.start bufferPool) t →
      t.received ++ (t.ring.1.waiting espCrc32Le .espNetif).filterMap
        (ringLinkNetifHandler configId') = t.output.filterMap ringLinkPacket) := by
  have h : NetifLink.Inv espCrc32Le configId' t :=
    run.invariant (.start bufferPool) fun _ _ _ h _ hs => h.step hs
  refine ⟨h.received_sublist, h.internal_sublist, fun hpackets => ?_, fun lossless => ?_⟩
  · have hsub := h.received_sublist
    rwa [filterMap_ringLinkPacket hpackets] at hsub
  · have hwhole : t.history.Whole espCrc32Le configId' := by
      clear run h
      induction lossless with
      | refl => exact ⟨rfl, rfl⟩
      | tail _ hl hstep ih =>
          obtain ⟨added, hhistory, -, hadded⟩ := NetifLink.step_history hstep
          rw [hhistory]
          exact ih.append (hadded hl)
    have hreceived : t.received = t.history.opened configId' := hwhole.received
    rw [hreceived, ← h.packets]
    exact hwhole.packets

/-- An empty IPv4 datagram. -/
def emptyDatagram : Pbuf :=
  ⟨[0x45, 0, 0, 20, 0, 0, 0, 0, 64, 59, 0, 0, 10, 0, 0, 1, 10, 0, 0, 2], [], List.cons_ne_nil _ _⟩

/-- The datagram goes to the other board's IP stack. -/
def sendDatagram : List NetifLinkLabel :=
  [.task .pollReceive, .output .tx emptyDatagram 0 true .carried, .task .transmitReturns,
    .task .processReceive, .task .processCheck, .task .processSend, .task .netifReceive,
    .netifHandler true]

theorem ringLink_packets_datagram :
    ∃ t, (netifLinkMachine (fun _ _ => 0) 0 1).runWith (fun _ l => l.lossless)
          (NetifLink.start fun _ => broadcastPayload 0 1 3 0 []) sendDatagram = some t ∧
      t.received.Sublist (t.output.filterMap ringLinkPacket) ∧
      (t.ring.2.handled .internal).Sublist t.internal ∧
      ((∀ packet ∈ t.output, IpPacket packet) → t.received.Sublist t.output) ∧
      ((netifLinkMachine (fun _ _ => 0) 0 1).Executes (fun _ l => l.lossless = true)
          (NetifLink.start fun _ => broadcastPayload 0 1 3 0 []) t →
        t.received ++ (t.ring.1.waiting (fun _ _ => 0) .espNetif).filterMap
          (ringLinkNetifHandler 1) = t.output.filterMap ringLinkPacket) := by
  have enabled : ((netifLinkMachine (fun _ _ => 0) 0 1).runWith (fun _ l => l.lossless)
      (NetifLink.start fun _ => broadcastPayload 0 1 3 0 []) sendDatagram).isSome := by
    decide +kernel
  obtain ⟨t, ht⟩ := Option.isSome_iff_exists.mp enabled
  exact ⟨t, ht, ringLink_packets _ _ _ _ t (Machine.executes_of_runWith ht).reaches⟩

end I4A
