import Mathlib.Data.List.Basic

/-! # Payloads of the SPI ring

`ring_link_payload.h`, `ring_link_lowlevel.c`, `ring_link.c` and the handlers of internal
payloads. `esp_crc32_le` is in the ROM: it is a parameter, and nothing is assumed about it.
-/

namespace I4A

/-- `RING_LINK_NETIF_MTU` for the default `CONFIG_SPI_BUFFER_SIZE` of 1600. -/
def ringLinkNetifMtu : Nat := 1600 - 12

/-- `CONFIG_ID_ANY` and `CONFIG_ID_ALL`. -/
def configIdAny : UInt8 := 10
def configIdAll : UInt8 := 11

/-- `RING_LINK_PAYLOAD_TYPE_INTERNAL` and `RING_LINK_PAYLOAD_TYPE_ESP_NETIF`. -/
def ringLinkPayloadTypeInternal : UInt8 := 0x11
def ringLinkPayloadTypeEspNetif : UInt8 := 0x80

/-- `ring_link_payload_t`; one byte of padding aligns `crc32`. -/
structure RingLinkPayload where
  id : UInt8
  bufferType : UInt8
  len : UInt16
  ttl : UInt8
  srcId : UInt8
  dstId : UInt8
  buffer : Vector UInt8 ringLinkNetifMtu
  padding : UInt8
  crc32 : BitVec 32
  deriving DecidableEq

/-- The call `node_on_sibling_message(p->buffer, p->len)`. -/
structure SiblingMessage where
  bytes : List UInt8
  len : UInt16
  deriving DecidableEq

/-- The queue that `process_payload` puts a payload into. -/
inductive RingLinkQueue where
  | internal | espNetif
  deriving DecidableEq

/-- What a board does with a payload: the message it hands to the node, the notification of the
waiting broadcast task, and the payload it transmits. -/
structure RingLinkResult where
  message : Option SiblingMessage
  notified : Bool
  transmitted : Option RingLinkPayload

namespace RingLinkPayload

variable (p : RingLinkPayload)

def isForDevice (configId : UInt8) : Bool := p.dstId = configId ∨ p.dstId = configIdAny

def isFromDevice (configId : UInt8) : Bool := p.srcId = configId

def isBroadcast : Bool := p.dstId = configIdAll

def isInternal : Bool := p.bufferType = ringLinkPayloadTypeInternal

def isEspNetif : Bool := p.bufferType = ringLinkPayloadTypeEspNetif

/-- The bytes in front of `crc32`. -/
def crcBytes : List UInt8 :=
  [p.id, p.bufferType, p.len.toUInt8, (p.len >>> 8).toUInt8, p.ttl, p.srcId, p.dstId] ++
    p.buffer.toList ++ [p.padding]

end RingLinkPayload

section RingLink

variable (espCrc32Le : BitVec 32 → List UInt8 → BitVec 32)

/-- `ring_link_compute_crc32`. -/
def ringLinkComputeCrc32 (p : RingLinkPayload) : BitVec 32 := espCrc32Le 0 p.crcBytes

/-- `ring_link_lowlevel_transmit_payload`: what goes over the wire. -/
def ringLinkLowlevelTransmitPayload (p : RingLinkPayload) : RingLinkPayload :=
  { p with crc32 := ringLinkComputeCrc32 espCrc32Le p }

/-- `ring_link_lowlevel_forward_payload`. -/
def ringLinkLowlevelForwardPayload (p : RingLinkPayload) : Option RingLinkPayload :=
  if p.ttl ≤ 0 then none
  else some (ringLinkLowlevelTransmitPayload espCrc32Le { p with ttl := p.ttl - 1 })

/-- `process_payload` with room in the queues. -/
def processPayload (p : RingLinkPayload) : Option RingLinkQueue :=
  if ringLinkComputeCrc32 espCrc32Le p ≠ p.crc32 then none
  else if p.isInternal then some .internal
  else if p.isEspNetif then some .espNetif
  else none

/-- `ring_link_internal_process`. -/
def ringLinkInternalProcess (p : RingLinkPayload) : SiblingMessage :=
  ⟨p.buffer.toList.take p.len.toNat, p.len⟩

/-- `broadcast_handler`; `broadcastTask` is whether `s_broadcast_task` is set. -/
def broadcastHandler (configId : UInt8) (broadcastTask : Bool) (p : RingLinkPayload) :
    RingLinkResult :=
  if p.isFromDevice configId then ⟨none, broadcastTask, none⟩
  else
    { message := some (ringLinkInternalProcess p)
      notified := false
      transmitted := ringLinkLowlevelForwardPayload espCrc32Le p }

/-- `ring_link_internal_handler`. -/
def ringLinkInternalHandler (configId : UInt8) (broadcastTask : Bool) (p : RingLinkPayload) :
    RingLinkResult :=
  if p.isBroadcast then broadcastHandler espCrc32Le configId broadcastTask p
  else if p.isForDevice configId then ⟨some (ringLinkInternalProcess p), false, none⟩
  else ⟨none, false, ringLinkLowlevelForwardPayload espCrc32Le p⟩

/-- The payload of `send_broadcast`, with the initial `ttl` as an argument; `idCounter` is
`s_id_counter`. -/
def broadcastPayload (idCounter configId ttl padding : UInt8) (message : List UInt8) :
    RingLinkPayload where
  id := idCounter
  bufferType := ringLinkPayloadTypeInternal
  len := UInt16.ofNat message.length
  ttl := ttl
  srcId := configId
  dstId := configIdAll
  buffer := Vector.ofFn fun i => message.getD i 0
  padding := padding
  crc32 := 0

/-- `send_broadcast`. -/
def sendBroadcast (idCounter configId ttl padding : UInt8) (message : List UInt8) :
    Option RingLinkPayload :=
  if ringLinkNetifMtu < message.length then none
  else some (ringLinkLowlevelTransmitPayload espCrc32Le
    (broadcastPayload idCounter configId ttl padding message))

end RingLink

/-! ## What a payload carries -/

/-- The copy of a message, cut to its length. -/
theorem take_buffer {mtu : Nat} {message : List UInt8} (fits : message.length ≤ mtu) :
    (Vector.ofFn fun i : Fin mtu => message.getD i 0).toList.take message.length = message := by
  apply List.ext_getElem?
  intro j
  rw [List.getElem?_take]
  by_cases hj : j < message.length
  · rw [if_pos hj, Vector.getElem?_toList, Vector.getElem?_ofFn, dif_pos (by omega),
      List.getD_eq_getElem?_getD, List.getElem?_eq_getElem hj, Option.getD_some]
  · rw [if_neg hj, List.getElem?_eq_none (by omega)]

theorem broadcastPayload_message (idCounter configId ttl padding : UInt8) {message : List UInt8}
    (fits : message.length ≤ ringLinkNetifMtu) :
    ringLinkInternalProcess (broadcastPayload idCounter configId ttl padding message) =
      ⟨message, UInt16.ofNat message.length⟩ := by
  have hlen : (UInt16.ofNat message.length).toNat = message.length := by
    rw [UInt16.toNat_ofNat']
    unfold ringLinkNetifMtu at fits
    omega
  show (⟨List.take (UInt16.ofNat message.length).toNat _, _⟩ : SiblingMessage) = _
  rw [hlen]
  exact congrArg (SiblingMessage.mk · _) (take_buffer fits)

end I4A
