import I4A.Core.CString
import I4A.Core.Checked
import I4A.Core.Words
import Mathlib.Data.Vector.Basic

/-! # What the boards of a node know of each other

`info_manager.c`: a board broadcasts a packed record of itself, and its siblings keep the last one
of every orientation.
-/

namespace I4A

namespace InfoManager

open Checked

/-- `MAX_ORIENTATIONS`, `UUID_LENGTH` and `LINK_SSID_LENGTH`. -/
abbrev maxOrientations : Nat := 5
abbrev uuidLength : Nat := 13
abbrev linkSsidLength : Nat := 32

theorem maxOrientations_pos : 0 < maxOrientations := by decide

/-- `im_ring_packet_t`. -/
structure ImRingPacket where
  uuid : Vector UInt8 uuidLength
  link : Vector UInt8 linkSsidLength
  orientation : UInt8
  channel : UInt8
  subnet : BitVec 32
  mask : BitVec 32
  rxBytes : UInt64
  txBytes : UInt64
  rssi : Int8
  deriving DecidableEq

/-- `sizeof(im_ring_packet_t)`; the record is packed. -/
def sizeofImRingPacket : Nat := uuidLength + linkSsidLength + 2 + 4 + 4 + 8 + 8 + 1

/-- Where the record keeps its orientation. -/
def orientationOffset : Nat := uuidLength + linkSsidLength

def putCounter (n : UInt64) : List UInt8 :=
  putWord (.ofNat 32 n.toNat) ++ putWord (.ofNat 32 (n.toNat / 2 ^ 32))

def takeCounter (bytes : List UInt8) : UInt64 :=
  .ofNat ((takeWord bytes).1.toNat + 2 ^ 32 * (takeWord (bytes.drop 4)).1.toNat)

namespace ImRingPacket

def encode (pkt : ImRingPacket) : List UInt8 :=
  pkt.uuid.toList ++ (pkt.link.toList ++ (pkt.orientation :: pkt.channel ::
    (putWord pkt.subnet ++ (putWord pkt.mask ++ (putCounter pkt.rxBytes ++
      (putCounter pkt.txBytes ++ [pkt.rssi.toUInt8]))))))

def decode (msg : List UInt8) : ImRingPacket where
  uuid := Vector.ofFn fun i => msg.getD i.val 0
  link := Vector.ofFn fun i => msg.getD (uuidLength + i.val) 0
  orientation := msg.getD orientationOffset 0
  channel := msg.getD (orientationOffset + 1) 0
  subnet := (takeWord (msg.drop (orientationOffset + 2))).1
  mask := (takeWord (msg.drop (orientationOffset + 6))).1
  rxBytes := takeCounter (msg.drop (orientationOffset + 10))
  txBytes := takeCounter (msg.drop (orientationOffset + 18))
  rssi := (msg.getD (orientationOffset + 26) 0).toInt8

/-- The texts of a record end inside their fields. -/
def Terminated (pkt : ImRingPacket) : Prop := 0 ∈ pkt.uuid ∧ 0 ∈ pkt.link

end ImRingPacket

/-- `im_manager_t.ring`. -/
abbrev Ring := Vector ImRingPacket maxOrientations

/-- The texts of all records end inside their fields. -/
def Ring.Terminated (ring : Ring) : Prop := ∀ pkt ∈ ring, pkt.Terminated

/-- `im_on_sibling_message`. -/
def onSiblingMessage (ring : Ring) (msg : List UInt8) : Checked Ring :=
  if msg.length < sizeofImRingPacket then .ok ring
  else
    let pkt := ImRingPacket.decode msg
    let idx := pkt.orientation.toNat
    if maxOrientations ≤ idx then .ok ring else store ring idx pkt

/-- What `im_broadcast_info` asks the node for. -/
structure DeviceInfo where
  orientation : Fin maxOrientations
  channel : UInt8
  subnet : BitVec 32
  mask : BitVec 32
  rssi : Int8
  rxCount : UInt64
  txCount : UInt64
  mac : List UInt8
  linkName : List UInt8

/-- The ring of `im_init`. -/
def imInit : Ring :=
  Vector.replicate maxOrientations
    ⟨Vector.replicate uuidLength 0, Vector.replicate linkSsidLength 0, 0, 0, 0, 0, 0, 0, 0⟩

/-- `snprintf(.., "%s", ..)` into a cleared field of `n + 1` bytes. -/
def textField (n : Nat) (text : List UInt8) : Vector UInt8 (n + 1) :=
  ⟨(strncpy n text ++ [0]).toArray, by simp⟩

/-- The packet of `im_broadcast_info`. -/
def DeviceInfo.packet (info : DeviceInfo) : ImRingPacket where
  uuid := textField (uuidLength - 1) info.mac
  link := textField (linkSsidLength - 1) info.linkName
  orientation := UInt8.ofNat info.orientation.val
  channel := info.channel
  subnet := info.subnet
  mask := info.mask
  rxBytes := info.rxCount
  txBytes := info.txCount
  rssi := info.rssi

/-- `im_broadcast_info`: the own entry, and the bytes of the broadcast. -/
def imBroadcastInfo (ring : Ring) (info : DeviceInfo) : Checked (Ring × List UInt8) := do
  let ring ← store ring info.packet.orientation.toNat info.packet
  return (ring, info.packet.encode)

/-! ## Records on the ring -/

theorem length_putCounter (n : UInt64) : (putCounter n).length = 8 := by
  rw [putCounter, List.length_append, putWord_length, putWord_length]

theorem takeCounter_putCounter (n : UInt64) (rest : List UInt8) :
    takeCounter (putCounter n ++ rest) = n := by
  have hlt : n.toNat < 2 ^ 64 := n.toNat_lt
  have hdrop : (putCounter n ++ rest).drop 4 = putWord (.ofNat 32 (n.toNat / 2 ^ 32)) ++ rest := by
    rw [putCounter, List.append_assoc]
    exact List.drop_left' (putWord_length _)
  have hsum : n.toNat % 2 ^ 32 + 2 ^ 32 * (n.toNat / 2 ^ 32 % 2 ^ 32) = n.toNat := by omega
  rw [takeCounter, hdrop, takeWord_putWord, putCounter, List.append_assoc, takeWord_putWord,
    BitVec.toNat_ofNat, BitVec.toNat_ofNat, hsum]
  exact UInt64.ofNat_toNat

theorem ImRingPacket.length_encode (pkt : ImRingPacket) :
    pkt.encode.length = sizeofImRingPacket := by
  simp only [encode, List.length_append, List.length_cons, Vector.length_toList, putWord_length,
    length_putCounter]
  rfl

theorem ofFn_getD_append {n k : Nat} {front : List UInt8} (hfront : front.length = k)
    (field : Vector UInt8 n) (rest : List UInt8) :
    (Vector.ofFn fun i : Fin n => (front ++ (field.toList ++ rest)).getD (k + i.val) 0) =
      field := by
  apply Vector.ext
  intro i hi
  rw [Vector.getElem_ofFn, List.getD_eq_getElem?_getD,
    List.getElem?_append_right (by rw [hfront]; exact Nat.le_add_right k i), hfront,
    Nat.add_sub_cancel_left,
    List.getElem?_append_left (by rw [Vector.length_toList]; exact hi), Vector.getElem?_toList,
    Vector.getElem?_eq_getElem hi, Option.getD_some]

theorem ImRingPacket.decode_encode (pkt : ImRingPacket) : decode pkt.encode = pkt := by
  obtain ⟨uuid, link, orientation, channel, subnet, mask, rxBytes, txBytes, rssi⟩ := pkt
  have hdrop : ∀ k rest, (uuid.toList ++ (link.toList ++ rest)).drop (orientationOffset + k) =
      rest.drop k := by
    intro k rest
    rw [← List.append_assoc, ← List.drop_drop, List.drop_left' (by simp [orientationOffset])]
  have hget : ∀ k rest, (uuid.toList ++ (link.toList ++ rest)).getD (orientationOffset + k) 0 =
      rest.getD k 0 := by
    intro k rest
    rw [List.getD_eq_getElem?_getD, List.getD_eq_getElem?_getD, ← Nat.add_zero (_ + k),
      ← List.getElem?_drop, hdrop, List.getElem?_drop, Nat.add_zero]
  have huuid := ofFn_getD_append (List.length_nil (α := UInt8)) uuid
  have hlink := ofFn_getD_append uuid.length_toList link
  simp only [Nat.zero_add, List.nil_append] at huuid
  have hzero := hget 0
  rw [Nat.add_zero] at hzero
  simp only [decode, encode, huuid, hlink, hzero, hget, hdrop, List.getD_cons_zero,
    List.getD_cons_succ, List.drop_succ_cons]
  have hmask : ∀ rest, (putWord subnet ++ rest).drop 4 = rest :=
    fun rest => List.drop_left' (putWord_length subnet)
  have hrx : ∀ rest, (putWord subnet ++ (putWord mask ++ rest)).drop 8 = rest := by
    intro rest
    rw [← List.append_assoc]
    exact List.drop_left' (by simp)
  have htx : ∀ rest,
      (putWord subnet ++ (putWord mask ++ (putCounter rxBytes ++ rest))).drop 16 = rest := by
    intro rest
    rw [← List.append_assoc, ← List.append_assoc]
    exact List.drop_left' (by simp [length_putCounter])
  have hrssi : (putWord subnet ++ (putWord mask ++ (putCounter rxBytes ++
      (putCounter txBytes ++ [rssi.toUInt8])))).getD 24 0 = rssi.toUInt8 := by
    rw [← List.append_assoc, ← List.append_assoc, ← List.append_assoc,
      List.getD_eq_getElem?_getD, List.getElem?_append_right (by simp [length_putCounter])]
    simp [length_putCounter]
  simp only [List.drop_zero, hmask, hrx, htx, hrssi, takeWord_putWord, takeCounter_putCounter,
    UInt8.toInt8]

/-! ## The ring -/

theorem onSiblingMessage_of_lt (ring : Ring) {msg : List UInt8}
    (hlength : sizeofImRingPacket ≤ msg.length)
    (h : (ImRingPacket.decode msg).orientation.toNat < maxOrientations) :
    onSiblingMessage ring msg =
      .ok (ring.set (ImRingPacket.decode msg).orientation.toNat (ImRingPacket.decode msg) h) := by
  unfold onSiblingMessage
  rw [if_neg (Nat.not_lt.mpr hlength), if_neg (Nat.not_le.mpr h), store_of_lt ring h]

theorem onSiblingMessage_ignored (ring : Ring) {msg : List UInt8}
    (h : maxOrientations ≤ (msg.getD orientationOffset 0).toNat) :
    onSiblingMessage ring msg = .ok ring := by
  unfold onSiblingMessage
  split
  · rfl
  · exact if_pos h

theorem onSiblingMessage_safe (ring : Ring) (msg : List UInt8) :
    Safe (onSiblingMessage ring msg) := by
  by_cases hlength : sizeofImRingPacket ≤ msg.length
  · by_cases hidx : maxOrientations ≤ (msg.getD orientationOffset 0).toNat
    · rw [onSiblingMessage_ignored ring hidx]
      exact safe_ok _
    · rw [onSiblingMessage_of_lt ring hlength (Nat.lt_of_not_le hidx)]
      exact safe_ok _
  · unfold onSiblingMessage
    rw [if_pos (Nat.lt_of_not_le hlength)]
    exact safe_ok _

theorem DeviceInfo.toNat_orientation (info : DeviceInfo) :
    info.packet.orientation.toNat = info.orientation.val := by
  unfold packet
  rw [UInt8.toNat_ofNat']
  exact Nat.mod_eq_of_lt (Nat.lt_trans info.orientation.isLt (by decide))

theorem imBroadcastInfo_packet (ring : Ring) (info : DeviceInfo) :
    imBroadcastInfo ring info =
      .ok (ring.set info.orientation.val info.packet info.orientation.isLt,
        info.packet.encode) := by
  unfold imBroadcastInfo
  rw [info.toNat_orientation, store_of_lt ring info.orientation.isLt]
  rfl

theorem onSiblingMessage_packet (ring : Ring) (info : DeviceInfo) :
    onSiblingMessage ring info.packet.encode =
      .ok (ring.set info.orientation.val info.packet info.orientation.isLt) := by
  have hlt : (ImRingPacket.decode info.packet.encode).orientation.toNat < maxOrientations := by
    rw [ImRingPacket.decode_encode, info.toNat_orientation]
    exact info.orientation.isLt
  rw [onSiblingMessage_of_lt ring (Nat.le_of_eq info.packet.length_encode.symm) hlt]
  simp only [ImRingPacket.decode_encode, info.toNat_orientation]

theorem zero_mem_textField (n : Nat) (text : List UInt8) : 0 ∈ textField n text := by
  rw [textField, Vector.mem_mk, List.mem_toArray]
  exact List.mem_append_right _ List.mem_cons_self

theorem DeviceInfo.packet_terminated (info : DeviceInfo) : info.packet.Terminated :=
  ⟨zero_mem_textField _ info.mac, zero_mem_textField _ info.linkName⟩

theorem imInit_terminated : imInit.Terminated := by
  intro pkt hpkt
  rw [Vector.eq_of_mem_replicate hpkt]
  simp [ImRingPacket.Terminated]

theorem Ring.Terminated.set {ring : Ring} (h : ring.Terminated) (info : DeviceInfo) :
    Ring.Terminated (ring.set info.orientation.val info.packet info.orientation.isLt) := by
  intro pkt hpkt
  rcases Vector.mem_or_eq_of_mem_set hpkt with hold | rfl
  · exact h pkt hold
  · exact info.packet_terminated

/-- The rings that the broadcasts of the board and of its siblings write. -/
inductive Ring.Written : Ring → Prop where
  | imInit : Written imInit
  | own {ring ring' : Ring} {info : DeviceInfo} {msg : List UInt8} (before : Written ring)
      (h : imBroadcastInfo ring info = .ok (ring', msg)) : Written ring'
  | sibling {ring ring' : Ring} {info : DeviceInfo} (before : Written ring)
      (h : onSiblingMessage ring info.packet.encode = .ok ring') : Written ring'

/-- The texts in them end inside their fields. -/
theorem Ring.Written.terminated {ring : Ring} (h : ring.Written) : ring.Terminated := by
  induction h with
  | imInit => exact imInit_terminated
  | @own ring ring' info msg _ h ih =>
      rw [imBroadcastInfo_packet] at h
      cases h
      exact ih.set info
  | @sibling ring ring' info _ h ih =>
      rw [onSiblingMessage_packet] at h
      cases h
      exact ih.set info

end InfoManager

end I4A
