import I4A.Core.CString
import I4A.Core.Checked
import Mathlib.Data.Vector.Basic

/-! # Networks that a node does not connect to again

`channel_manager.c`, the choice of a network in `station.c` and the SSIDs that `device.c` builds.
A network's name is the 33-byte field of a scan record; the UUID in it is read at a fixed offset.
-/

namespace I4A

/-- `node_device_orientation_t`: N, S, E, W and the center. -/
abbrev NodeOrientation := Fin 5

namespace ChannelManager

open Checked

/-- `CHANNELS`, `MAX_PEERS`, `MAX_NETWORK_NAME_LENGTH`, `NETWORK_NAME_UUID_OFFSET` and
`UUID_LEN`. -/
abbrev channels : Nat := 5
abbrev maxPeers : Nat := 4
abbrev maxNetworkNameLength : Nat := 33
abbrev networkNameUuidOffset : Nat := 6
abbrev uuidLen : Nat := 12

/-- `wifi_ap_record_t.ssid` and `cm_message_t.network_name`. -/
abbrev NetworkName := Vector UInt8 maxNetworkNameLength

def formation1 : Vector UInt8 channels := #v[1, 7, 4, 10, 11]
def formation2 : Vector UInt8 channels := #v[5, 11, 8, 2, 11]

/-- `cm_message_t`. -/
structure CmMessage where
  orientation : UInt8
  channels : Vector UInt8 channels
  networkName : NetworkName
  deriving DecidableEq

/-- `sizeof(cm_message_t)`. -/
def sizeofCmMessage : Nat := 1 + channels + maxNetworkNameLength

def CmMessage.encode (packet : CmMessage) : List UInt8 :=
  packet.orientation :: packet.channels.toList ++ packet.networkName.toList

def CmMessage.decode (msg : List UInt8) : CmMessage where
  orientation := msg.getD 0 0
  channels := Vector.ofFn fun i => msg.getD (1 + i.val) 0
  networkName := Vector.ofFn fun i => msg.getD (1 + ChannelManager.channels + i.val) 0

/-- The UUIDs that the lists start with. -/
def placeholder (i : Nat) : List UInt8 :=
  ascii ['0', '0', '0', '0', '0', '0', '0', '0', '0', '0', '0'] ++ [UInt8.ofNat (0x31 + i), 0]

/-- The entry made of a name: twelve bytes from the offset, and the end of the text. -/
def uuidEntry (networkName : NetworkName) : List UInt8 :=
  (networkName.toList.drop networkNameUuidOffset).take uuidLen ++ [0]

/-- `channel_manager_t` with the static lists; `rs` is set once and left out. -/
structure State where
  suggestedChannel : UInt8
  orientation : NodeOrientation
  blockedNetworks : Vector (List UInt8) maxPeers
  fullNetworks : Vector (List UInt8) maxPeers
  fullNetworkIndex : Nat

/-- `cm_init`. -/
def cmInit (orientation : NodeOrientation) : State where
  suggestedChannel := formation1[orientation]
  orientation := orientation
  blockedNetworks := Vector.ofFn fun i => placeholder i.val
  fullNetworks := Vector.ofFn fun i => placeholder i.val
  fullNetworkIndex := 0

/-- `on_sibling_message`, with the result of `node_is_network_provided`; the flag is the call of
`node_disable_sta`. -/
def onSiblingMessage (cm : State) (networkProvided : Bool) (msg : List UInt8) :
    Checked (State × Bool) :=
  if msg.length ≠ sizeofCmMessage then .ok (cm, false)
  else do
    let packet := CmMessage.decode msg
    let networkOrientation := clamp maxPeers packet.orientation.toNat
    let blockedNetworks ← store cm.blockedNetworks networkOrientation
      (uuidEntry packet.networkName)
    if networkProvided then
      return ({ cm with blockedNetworks }, false)
    else
      let suggestedChannel ← load packet.channels cm.orientation.val
      return ({ cm with blockedNetworks, suggestedChannel }, true)

/-- `select_formation`. -/
def selectFormation (connectedChannel : UInt8) : Vector UInt8 channels :=
  if connectedChannel ∈ formation1.toList.take 4 then formation2 else formation1

/-- `cm_provide_to_siblings`, with the packet it broadcasts. -/
def cmProvideToSiblings (cm : State) (connectedChannel : UInt8) (networkName : NetworkName) :
    State × CmMessage :=
  let selectedFormation := selectFormation connectedChannel
  ({ cm with suggestedChannel := selectedFormation[cm.orientation] },
    { orientation := UInt8.ofNat cm.orientation.val
      channels := selectedFormation
      networkName := ⟨(strncpy (maxNetworkNameLength - 1) networkName.toList ++ [0]).toArray,
        by simp⟩ })

/-- `cm_block_full_ap`. -/
def cmBlockFullAp (cm : State) (networkName : NetworkName) : Checked State := do
  let fullNetworks ← store cm.fullNetworks cm.fullNetworkIndex (uuidEntry networkName)
  return { cm with fullNetworks, fullNetworkIndex := (cm.fullNetworkIndex + 1) % maxPeers }

/-- `cm_is_blocked_uuid`. -/
def cmIsBlockedUuid (cm : State) (networkName : NetworkName) : Bool :=
  (List.finRange maxPeers).any fun i =>
    strstr (cString networkName.toList) (cString cm.blockedNetworks[i]) ||
      strstr (cString networkName.toList) (cString cm.fullNetworks[i])

/-! ## station.c -/

/-- `SSID_ORIENTATION_OFFSET`. -/
def ssidOrientationOffset : Nat := 4

/-- `ssid_is_ns` and `sta_is_ns`. -/
def ssidIsNs (networkName : NetworkName) : Bool :=
  networkName.toList.getD ssidOrientationOffset 0 ∈ ascii ['N', 'S']

def staIsNs (orientation : NodeOrientation) : Bool :=
  orientation.val = 0 ∨ orientation.val = 1

/-- `is_network_allowed`; its argument `is_apsta` is not used. -/
def isNetworkAllowed (cm : State) (deviceUuid networkPrefix : List UInt8)
    (networkName : NetworkName) (orientation : NodeOrientation) : Bool :=
  if strstr (cString networkName.toList) networkPrefix = false then false
  else if strstr (cString networkName.toList) deviceUuid = true then false
  else if cmIsBlockedUuid cm networkName = true then false
  else ssidIsNs networkName = staIsNs orientation

/-! ## SSIDs of nodes -/

/-- `NODE_NAME_PREFIX`. -/
def nodeNamePrefix : List UInt8 := ascii ['I', '4', 'A']

/-- `dev_orientation`. -/
def devOrientation : Vector (List UInt8) 5 :=
  #v[ascii ['_', 'N', '_'], ascii ['_', 'S', '_'], ascii ['_', 'E', '_'], ascii ['_', 'W', '_'],
    ascii ['_', 'C', '_']]

/-- The SSID of `device_init_ap`. -/
def deviceInitApSsid (networkPrefix deviceUuid : List UInt8) (orientation : NodeOrientation) :
    List UInt8 :=
  if orientation.val = 4 then networkPrefix
  else networkPrefix ++ devOrientation[orientation] ++ deviceUuid

/-- A digit of `"%02X"`. -/
def hexDigit (d : Fin 16) : UInt8 := UInt8.ofNat (if d.val < 10 then 0x30 + d.val else 0x37 + d.val)

/-- The UUID of a node: twelve digits as `rm_generate_uuid_from_mac` prints them. -/
structure Uuid where
  digits : List (Fin 16)
  size : digits.length = uuidLen
  deriving DecidableEq

def Uuid.bytes (uuid : Uuid) : List UInt8 := uuid.digits.map hexDigit

/-- The SSID of the node's access point on one of its four sides. -/
def nodeSsid (side : Fin 4) (uuid : Uuid) : List UInt8 :=
  deviceInitApSsid nodeNamePrefix uuid.bytes side.castSucc

/-- The record of a scan for a text of at most 32 bytes. -/
def recordOf (text : List UInt8) : NetworkName := Vector.ofFn fun i => text.getD i.val 0

end ChannelManager

end I4A
