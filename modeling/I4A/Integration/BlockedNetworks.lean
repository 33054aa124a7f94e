import I4A.Core.Machine
import I4A.Integration.ChannelManager
import Mathlib.Data.List.Nodup
import Mathlib.Data.List.Perm.Subperm

/-! # What the block lists of a node hold

The boards of a node find networks, tell each other which ones they are connected to and block
those that are full. The lists are compared with the calls that filled them.
-/

namespace I4A

namespace ChannelManager

open Checked

/-! ## The boards of a node -/

/-- A network name as a scan gives it: the 33rd byte ends the text. -/
structure SsidRecord where
  name : NetworkName
  terminated : name[32] = 0

/-- What was stored in a board's lists: a sibling's packet, or a full network. -/
inductive CmCall where
  | received (packet : CmMessage)
  | blockedFull (networkName : NetworkName)

structure StationBoard where
  cm : State
  /-- `wifi_ap_found`, while `ap_found` is set. -/
  apFound : Option SsidRecord
  calls : List CmCall

/-- The five boards, and every packet broadcast so far. -/
structure StationNode where
  boards : NodeOrientation → StationBoard
  sent : List CmMessage

/-- Only the four forwarders have a station. -/
inductive StationLabel where
  | find (board : Fin 4) (ssid : SsidRecord)
  | provide (board : Fin 4)  (connectedChannel : UInt8)
  | deliver (packet : CmMessage) (board : NodeOrientation) (networkProvided : Bool)
  | blockFull (board : Fin 4)

namespace StationNode

def start : StationNode where
  boards o := ⟨cmInit o, none, []⟩
  sent := []

variable (uuid : Uuid) (s : StationNode)

def setBoard (o : NodeOrientation) (board : StationBoard) : StationNode :=
  { s with boards := Function.update s.boards o board }

/-- One step of a node whose UUID is `uuid`. The ring may deliver a packet late, again, or in
another order. -/
def step : StationLabel → Option StationNode
  | .find b ssid =>
      let board := s.boards b.castSucc
      if isNetworkAllowed board.cm uuid.bytes nodeNamePrefix ssid.name b.castSucc then
        some (s.setBoard b.castSucc { board with apFound := some ssid })
      else none
  | .provide b connectedChannel =>
      let board := s.boards b.castSucc
      board.apFound.map fun ssid =>
        let provided := cmProvideToSiblings board.cm connectedChannel ssid.name
        { s.setBoard b.castSucc { board with cm := provided.1 } with
          sent := provided.2 :: s.sent }
  | .deliver packet o networkProvided =>
      let board := s.boards o
      if packet ∈ s.sent ∧ packet.orientation.toNat ≠ o.val then
        match onSiblingMessage board.cm networkProvided packet.encode with
        | .ok (cm, _) =>
            some (s.setBoard o { board with cm, calls := board.calls ++ [.received packet] })
        | .error _ => none
      else none
  | .blockFull b =>
      let board := s.boards b.castSucc
      board.apFound.bind fun ssid =>
        match cmBlockFullAp board.cm ssid.name with
        | .ok cm =>
            some (s.setBoard b.castSucc
              { board with cm, calls := board.calls ++ [.blockedFull ssid.name] })
        | .error _ => none

end StationNode

def stationMachine (uuid : Uuid) : Machine StationNode StationLabel := ⟨fun s l => s.step uuid l⟩

/-! ## What the calls say -/

/-- The UUID in a network's name. -/
def uuidOf (networkName : NetworkName) : List UInt8 := cString (uuidEntry networkName)

/-- The packet last received for an orientation. -/
def lastReceived (calls : List CmCall) (o : Fin maxPeers) : Option CmMessage :=
  calls.reverse.findSome? fun
    | .received packet => if packet.orientation.toNat = o.val then some packet else none
    | .blockedFull _ => none

/-- The full networks, in the order of their calls. -/
def fullCalls (calls : List CmCall) : List NetworkName :=
  calls.filterMap fun
    | .received _ => none
    | .blockedFull networkName => some networkName

/-- The UUIDs last received for some orientation, and the last four of full networks. -/
def storedUuids (calls : List CmCall) : List (List UInt8) :=
  (List.finRange maxPeers).filterMap
      (fun o => (lastReceived calls o).map fun packet => uuidOf packet.networkName) ++
    ((fullCalls calls).reverse.take maxPeers).map uuidOf

/-- One of the UUIDs the lists start with. -/
def Uuid.IsPlaceholder (uuid : Uuid) : Prop :=
  ∃ i < maxPeers, uuid.bytes = cString (placeholder i)

/-- Twelve digits of a UUID, or a text that is found in no SSID of a node. -/
def Harmless (entry : List UInt8) : Prop :=
  (∃ uuid : Uuid, entry = uuid.bytes) ∨ ∀ side uuid, ¬ entry <:+: nodeSsid side uuid

/-- The networks of nodes that a board blocks are those it has stored, and its station rejects
these, its own and those of the other pair of sides. -/
structure BlocksExactly (uuid : Uuid) (o : NodeOrientation) (board : StationBoard) : Prop where
  blocked : ∀ side other, ¬ Uuid.IsPlaceholder other →
    (cmIsBlockedUuid board.cm (recordOf (nodeSsid side other)) = true ↔
      other.bytes ∈ storedUuids board.calls)
  rejected : ∀ side other, ¬ Uuid.IsPlaceholder other →
    (isNetworkAllowed board.cm uuid.bytes nodeNamePrefix (recordOf (nodeSsid side other)) o =
      false ↔
      other.bytes ∈ storedUuids board.calls ∨ other = uuid ∨
        ¬ (side.val < 2 ↔ o.val < 2))

/-! ## UUIDs in SSIDs -/

theorem hexDigit_injective : Function.Injective hexDigit := by
  have all : ∀ c d : Fin 16, hexDigit c = hexDigit d → c = d := by decide
  exact fun c d => all c d

theorem hexDigit_ne (d : Fin 16) : hexDigit d ≠ 0 ∧ hexDigit d ≠ 0x5f := by
  revert d
  decide

theorem Uuid.bytes_injective {first second : Uuid} (h : first.bytes = second.bytes) :
    first = second := by
  cases first
  cases second
  simpa [Uuid.bytes, (List.map_injective_iff.mpr hexDigit_injective).eq_iff] using h

@[simp] theorem Uuid.length_bytes (uuid : Uuid) : uuid.bytes.length = 12 := by
  rw [Uuid.bytes, List.length_map, uuid.size]

theorem Uuid.ne_of_mem {uuid : Uuid} {b : UInt8} (h : b ∈ uuid.bytes) : b ≠ 0 ∧ b ≠ 0x5f := by
  obtain ⟨d, -, rfl⟩ := List.mem_map.mp h
  exact hexDigit_ne d

/-- The six bytes in front of the UUID. -/
def ssidHead (side : Fin 4) : List UInt8 := nodeNamePrefix ++ devOrientation[side.val]

theorem nodeSsid_eq (side : Fin 4) (uuid : Uuid) :
    nodeSsid side uuid = ssidHead side ++ uuid.bytes :=
  if_neg (Nat.ne_of_lt side.isLt)

theorem ssidHead_facts (side : Fin 4) :
    (ssidHead side).length = 6 ∧ (ssidHead side)[5]? = some 0x5f ∧ (0 : UInt8) ∉ ssidHead side := by
  revert side
  decide

theorem cString_recordOf (side : Fin 4) (uuid : Uuid) :
    cString (recordOf (nodeSsid side uuid)).toList = nodeSsid side uuid := by
  have hlength : (nodeSsid side uuid).length = 18 := by
    rw [nodeSsid_eq, List.length_append, (ssidHead_facts side).1, Uuid.length_bytes]
  have hrecord : (recordOf (nodeSsid side uuid)).toList =
      nodeSsid side uuid ++ 0 :: List.replicate 14 0 := by
    apply List.ext_getElem?
    intro i
    have hget : (recordOf (nodeSsid side uuid)).toList[i]? =
        if i < 33 then some ((nodeSsid side uuid).getD i 0) else none := by
      rw [recordOf, Vector.getElem?_toList, Vector.getElem?_ofFn]
      split <;> rfl
    rw [hget]
    by_cases hi : i < 18
    · rw [List.getElem?_append_left (by omega), if_pos (by omega), List.getD_eq_getElem?_getD,
        List.getElem?_eq_getElem (by omega), Option.getD_some]
    · rw [List.getElem?_append_right (by omega), ← List.replicate_succ, List.getElem?_replicate,
        List.getD_eq_getElem?_getD, List.getElem?_eq_none (by omega), Option.getD_none, hlength]
      by_cases hlt : i < 33
      · rw [if_pos hlt, if_pos (by omega)]
      · rw [if_neg hlt, if_neg (by omega)]
  rw [hrecord]
  refine cString_append_zero (fun b hb => ?_) _
  rw [nodeSsid_eq, List.mem_append] at hb
  rcases hb with hb | hb
  · rintro rfl
    exact (ssidHead_facts side).2.2 hb
  · exact (Uuid.ne_of_mem hb).1

/-- A UUID is found only in its own SSIDs. -/
theorem bytes_infix_nodeSsid {side : Fin 4} {first second : Uuid} :
    first.bytes <:+: nodeSsid side second ↔ first = second := by
  obtain ⟨hhead, hlast, -⟩ := ssidHead_facts side
  rw [nodeSsid_eq]
  constructor
  · rintro ⟨s, t, h⟩
    have hlength := congrArg List.length h
    simp only [List.length_append, Uuid.length_bytes, hhead] at hlength
    have hs : s.length = 6 := by
      by_contra hne
      -- the occurrence would run over the underscore in front of the UUID
      have hat : (s ++ first.bytes ++ t)[5]? = some 0x5f := by
        rw [h, List.getElem?_append_left (by omega), hlast]
      rw [List.append_assoc, List.getElem?_append_right (by omega),
        List.getElem?_append_left (by rw [Uuid.length_bytes]; omega)] at hat
      exact (Uuid.ne_of_mem (List.mem_of_getElem? hat)).2 rfl
    have ht : t = [] := List.eq_nil_of_length_eq_zero (by omega)
    subst ht
    rw [List.append_nil] at h
    exact Uuid.bytes_injective (List.append_inj h (by omega)).2
  · rintro rfl
    exact (List.suffix_append _ _).isInfix

/-- A short text in an SSID is the UUID, or leaves its last digit or its first digit open. -/
theorem infix_cases {side : Fin 4} {uuid : Uuid} {entry : List UInt8} (short : entry.length ≤ 12)
    (h : entry <:+: nodeSsid side uuid) :
    entry = uuid.bytes ∨ entry <:+: ssidHead side ++ uuid.bytes.dropLast ∨
      entry <:+: uuid.bytes.tail := by
  obtain ⟨hhead, -, -⟩ := ssidHead_facts side
  rw [nodeSsid_eq] at h
  obtain ⟨s, t, h⟩ := h
  have hlength := congrArg List.length h
  simp only [List.length_append, Uuid.length_bytes, hhead] at hlength
  rcases List.eq_nil_or_concat t with rfl | ⟨t, b, rfl⟩
  · rw [List.append_nil] at h
    rw [List.length_nil] at hlength
    by_cases hs : s.length = 6
    · exact .inl (List.append_inj h (by omega)).2
    · right
      right
      have hleft : (s ++ entry).drop 7 = s.drop 7 ++ entry :=
        List.drop_append_of_le_length (by omega)
      have hright : (ssidHead side ++ uuid.bytes).drop 7 = uuid.bytes.tail := by
        rw [List.drop_append, hhead, List.drop_of_length_le (by omega), List.nil_append,
          List.drop_one]
      refine ⟨s.drop 7, [], ?_⟩
      rw [List.append_nil, ← hleft, h, hright]
  · right
    left
    have hne : uuid.bytes ≠ [] := by
      intro hnil
      have hlen := Uuid.length_bytes uuid
      rw [hnil] at hlen
      cases hlen
    have hinit := congrArg List.dropLast h
    rw [List.concat_eq_append, ← List.append_assoc, List.dropLast_concat,
      List.dropLast_append_of_ne_nil hne] at hinit
    exact ⟨s, t, hinit⟩

/-! ## Which entries may be stored -/

/-- Sixteen UUIDs in whose SSIDs the text is found as well. -/
theorem exists_family {side : Fin 4} {uuid : Uuid} {entry : List UInt8}
    (short : entry.length ≤ 12) (h : entry <:+: nodeSsid side uuid) (hne : entry ≠ uuid.bytes) :
    ∃ family : Fin 16 → Uuid, Function.Injective family ∧
      ∀ d, entry <:+: nodeSsid side (family d) := by
  have hsize : uuid.digits.length = 12 := uuid.size
  rcases infix_cases short h with heq | hlast | hfirst
  · exact absurd heq hne
  · refine ⟨fun d => ⟨uuid.digits.dropLast ++ [d], by simp [hsize]⟩, fun c d hcd => ?_, fun d => ?_⟩
    · have hdigits := congrArg Uuid.digits hcd
      simpa using hdigits
    · rw [nodeSsid_eq]
      refine hlast.trans ?_
      have hbytes : (⟨uuid.digits.dropLast ++ [d], by simp [hsize]⟩ : Uuid).bytes =
          uuid.bytes.dropLast ++ [hexDigit d] := by
        simp [Uuid.bytes, List.map_dropLast]
      rw [hbytes, ← List.append_assoc]
      exact (List.prefix_append _ _).isInfix
  · refine ⟨fun d => ⟨d :: uuid.digits.tail, by simp [hsize]⟩, fun c d hcd => ?_, fun d => ?_⟩
    · have hdigits := congrArg Uuid.digits hcd
      simpa using hdigits
    · rw [nodeSsid_eq]
      refine hfirst.trans ?_
      have hbytes : (⟨d :: uuid.digits.tail, by simp [hsize]⟩ : Uuid).bytes =
          hexDigit d :: uuid.bytes.tail := by
        simp [Uuid.bytes, List.map_tail]
      rw [hbytes, ← List.singleton_append, ← List.append_assoc]
      exact (List.suffix_append _ _).isInfix

/-- Up to eight stored texts are found in the SSIDs of exactly the UUIDs among them if and only if
all of them are harmless: one that is not is found in more SSIDs than there are texts. -/
theorem found_iff_stored_iff {stored : List (List UInt8)} (few : stored.length ≤ 8)
    (short : ∀ entry ∈ stored, entry.length ≤ 12) :
    (∀ side uuid, ¬ Uuid.IsPlaceholder uuid →
        ((∃ entry ∈ stored, entry <:+: nodeSsid side uuid) ↔ uuid.bytes ∈ stored)) ↔
      ∀ entry ∈ stored, Harmless entry := by
  constructor
  · intro exact_ entry hentry
    by_contra hharm
    rw [Harmless, not_or] at hharm
    obtain ⟨hnot, hfound⟩ := hharm
    push Not at hfound
    obtain ⟨side, uuid, hinfix⟩ := hfound
    obtain ⟨family, hinj, hfamily⟩ := exists_family (short entry hentry) hinfix
      fun heq => hnot ⟨uuid, heq⟩
    have hall : ∀ d, (family d).bytes ∈
        (List.range maxPeers).map (fun i => cString (placeholder i)) ++ stored := by
      intro d
      rw [List.mem_append]
      by_cases hp : Uuid.IsPlaceholder (family d)
      · obtain ⟨i, hi, heq⟩ := hp
        exact .inl (List.mem_map.mpr ⟨i, List.mem_range.mpr hi, heq.symm⟩)
      · exact .inr ((exact_ side (family d) hp).mp ⟨entry, hentry, hfamily d⟩)
    have hnodup : ((List.finRange 16).map fun d => (family d).bytes).Nodup :=
      (List.nodup_finRange 16).map fun c d h => hinj (Uuid.bytes_injective h)
    have hsub : ((List.finRange 16).map fun d => (family d).bytes) ⊆
        (List.range maxPeers).map (fun i => cString (placeholder i)) ++ stored := by
      intro b hb
      obtain ⟨d, -, rfl⟩ := List.mem_map.mp hb
      exact hall d
    have hlength := (hnodup.subperm hsub).length_le
    have hpeers : maxPeers = 4 := rfl
    simp only [List.length_map, List.length_finRange, List.length_append,
      List.length_range] at hlength
    omega
  · intro harmless side uuid _
    constructor
    · rintro ⟨entry, hentry, hinfix⟩
      rcases harmless entry hentry with ⟨other, rfl⟩ | hnone
      · rwa [← bytes_infix_nodeSsid.mp hinfix]
      · exact absurd hinfix (hnone side uuid)
    · intro hmem
      exact ⟨uuid.bytes, hmem, bytes_infix_nodeSsid.mpr rfl⟩

/-! ## The lists hold what the calls stored -/

/-- The lists of a board after its calls. -/
structure Recorded (cm : State) (calls : List CmCall) : Prop where
  blocked : ∀ o : Fin maxPeers, cm.blockedNetworks.get o =
    ((lastReceived calls o).map fun packet => uuidEntry packet.networkName).getD (placeholder o.val)
  index : cm.fullNetworkIndex = (fullCalls calls).length % maxPeers
  recent : ∀ p name, (fullCalls calls)[p]? = some name → (fullCalls calls).length ≤ p + maxPeers →
    cm.fullNetworks[p % maxPeers]? = some (uuidEntry name)
  unused : ∀ k, k < maxPeers → (fullCalls calls).length ≤ k →
    cm.fullNetworks[k]? = some (placeholder k)

theorem recorded_cmInit (o : NodeOrientation) : Recorded (cmInit o) [] where
  blocked i := Vector.getElem_ofFn i.isLt
  index := rfl
  recent p name h := by simp [fullCalls] at h
  unused k hk _ := by simp [cmInit, hk]

theorem decode_encode (packet : CmMessage) : CmMessage.decode packet.encode = packet := by
  obtain ⟨orientation, channels, networkName⟩ := packet
  simp only [CmMessage.decode, CmMessage.encode, CmMessage.mk.injEq]
  refine ⟨rfl, ?_, ?_⟩
  · apply Vector.ext
    intro i hi
    rw [Vector.getElem_ofFn, List.getD_eq_getElem?_getD, List.cons_append, Nat.add_comm,
      List.getElem?_cons_succ, List.getElem?_append_left (by rw [Vector.length_toList]; exact hi),
      Vector.getElem?_toList, Vector.getElem?_eq_getElem hi, Option.getD_some]
  · apply Vector.ext
    intro i hi
    rw [Vector.getElem_ofFn, List.getD_eq_getElem?_getD, List.cons_append, Nat.add_assoc,
      Nat.add_comm, List.getElem?_cons_succ,
      List.getElem?_append_right (by rw [Vector.length_toList]; exact Nat.le_add_right _ _),
      Vector.length_toList, Nat.add_sub_cancel_left, Vector.getElem?_toList,
      Vector.getElem?_eq_getElem hi, Option.getD_some]

theorem length_encode (packet : CmMessage) : packet.encode.length = sizeofCmMessage := by
  rw [CmMessage.encode, List.cons_append, List.length_cons, List.length_append,
    Vector.length_toList, Vector.length_toList]
  rfl

/-- A sibling's packet: only the block list and the channel change. -/
theorem onSiblingMessage_encode (cm : State) (networkProvided : Bool) (packet : CmMessage) :
    ∃ suggestedChannel stopped, onSiblingMessage cm networkProvided packet.encode =
      .ok ({ cm with
        suggestedChannel
        blockedNetworks := cm.blockedNetworks.set (clamp maxPeers packet.orientation.toNat)
          (uuidEntry packet.networkName) (clamp_lt (by decide) _) }, stopped) := by
  have hstore := store_of_lt cm.blockedNetworks
    (clamp_lt (by decide : 0 < maxPeers) packet.orientation.toNat) (uuidEntry packet.networkName)
  have hload := load_of_lt packet.channels cm.orientation.isLt
  rw [onSiblingMessage, if_neg (fun h => h (length_encode packet)), decode_encode]
  dsimp only
  rw [hstore]
  cases networkProvided with
  | true => exact ⟨cm.suggestedChannel, false, rfl⟩
  | false => exact ⟨packet.channels[cm.orientation.val], true, by simp only [hload]; rfl⟩

theorem lastReceived_received (calls : List CmCall) (packet : CmMessage) (o : Fin maxPeers) :
    lastReceived (calls ++ [.received packet]) o =
      if packet.orientation.toNat = o.val then some packet else lastReceived calls o := by
  rw [lastReceived, List.reverse_append, List.reverse_singleton, List.singleton_append,
    List.findSome?_cons]
  by_cases h : packet.orientation.toNat = o.val
  · simp only [h, if_true]
  · simp only [h, if_false]
    rfl

theorem Recorded.received {cm : State} {calls : List CmCall} (inv : Recorded cm calls)
    {packet : CmMessage} (hsrc : packet.orientation.toNat < maxPeers) (suggestedChannel : UInt8) :
    Recorded { cm with
        suggestedChannel
        blockedNetworks := cm.blockedNetworks.set (clamp maxPeers packet.orientation.toNat)
          (uuidEntry packet.networkName) (clamp_lt (by decide) _) }
      (calls ++ [.received packet]) := by
  have hfull : fullCalls (calls ++ [.received packet]) = fullCalls calls := by
    simp [fullCalls]
  constructor
  · intro o
    change (cm.blockedNetworks.set _ _ (clamp_lt (by decide) _))[o.val] = _
    rw [lastReceived_received]
    simp only [clamp_of_lt hsrc, Vector.getElem_set]
    split
    · rfl
    · exact inv.blocked o
  · rw [hfull]
    exact inv.index
  · rw [hfull]
    exact inv.recent
  · rw [hfull]
    exact inv.unused

/-- A full network goes to the next place of the list. -/
theorem cmBlockFullAp_of_recorded {cm : State} {calls : List CmCall} (inv : Recorded cm calls)
    (networkName : NetworkName) :
    ∃ cm', cmBlockFullAp cm networkName = .ok cm' ∧ cm'.orientation = cm.orientation ∧
      Recorded cm' (calls ++ [.blockedFull networkName]) := by
  have hlt : cm.fullNetworkIndex < maxPeers := by
    rw [inv.index]
    exact Nat.mod_lt _ (by decide)
  have hblock : cmBlockFullAp cm networkName = .ok { cm with
      fullNetworks := cm.fullNetworks.set cm.fullNetworkIndex (uuidEntry networkName) hlt
      fullNetworkIndex := (cm.fullNetworkIndex + 1) % maxPeers } := by
    rw [cmBlockFullAp, store_of_lt cm.fullNetworks hlt]
    rfl
  refine ⟨_, hblock, rfl, ?_⟩
  have hfull : fullCalls (calls ++ [.blockedFull networkName]) =
      fullCalls calls ++ [networkName] := by
    simp [fullCalls]
  have hindex : cm.fullNetworkIndex = (fullCalls calls).length % 4 := inv.index
  constructor
  · intro o
    have hlast : lastReceived (calls ++ [.blockedFull networkName]) o = lastReceived calls o := by
      simp [lastReceived]
    rw [hlast]
    exact inv.blocked o
  · rw [hfull, List.length_append, List.length_singleton]
    show (cm.fullNetworkIndex + 1) % maxPeers = _
    rw [inv.index, Nat.mod_add_mod]
  · intro p name hp hrecent
    rw [hfull] at hp hrecent
    rw [List.length_append, List.length_singleton] at hrecent
    rw [Vector.getElem?_set]
    by_cases hlast : p = (fullCalls calls).length
    · subst hlast
      rw [List.getElem?_concat_length] at hp
      rw [if_pos inv.index]
      simp [Option.some.inj hp]
    · have hold : p < (fullCalls calls).length := by
        have hbound := (List.getElem?_eq_some_iff.mp hp).1
        rw [List.length_append, List.length_singleton] at hbound
        omega
      rw [List.getElem?_append_left hold] at hp
      have hother : cm.fullNetworkIndex ≠ p % 4 := by
        have hpeers : maxPeers = 4 := rfl
        omega
      rw [if_neg hother]
      exact inv.recent p name hp (Nat.le_of_succ_le hrecent)
  · intro k hk hunused
    rw [hfull, List.length_append, List.length_singleton] at hunused
    have hother : cm.fullNetworkIndex ≠ k := by
      have hk' : k < 4 := hk
      omega
    rw [Vector.getElem?_set, if_neg hother]
    exact inv.unused k hk (Nat.le_of_succ_le hunused)

/-! ## Runs of a node -/

/-- The lists of every board are those of its calls, and packets come from forwarders. -/
structure NodeRecorded (s : StationNode) : Prop where
  orientation : ∀ o, (s.boards o).cm.orientation = o
  recorded : ∀ o, Recorded (s.boards o).cm (s.boards o).calls
  sent : ∀ packet ∈ s.sent, packet.orientation.toNat < maxPeers

theorem NodeRecorded.setBoard {s : StationNode} (inv : NodeRecorded s) (o : NodeOrientation)
    {board : StationBoard} (horientation : board.cm.orientation = o)
    (hrecorded : Recorded board.cm board.calls) : NodeRecorded (s.setBoard o board) := by
  constructor
  · intro o'
    by_cases h : o' = o
    · subst h
      simpa [StationNode.setBoard] using horientation
    · simpa [StationNode.setBoard, h] using inv.orientation o'
  · intro o'
    by_cases h : o' = o
    · subst h
      simpa [StationNode.setBoard] using hrecorded
    · simpa [StationNode.setBoard, h] using inv.recorded o'
  · exact inv.sent

theorem NodeRecorded.next {uuid : Uuid} {s t : StationNode} {l : StationLabel}
    (inv : NodeRecorded s) (h : s.step uuid l = some t) : NodeRecorded t := by
  cases l with
  | find b ssid =>
      simp only [StationNode.step, Option.ite_none_right_eq_some, Option.some.injEq] at h
      obtain ⟨-, rfl⟩ := h
      exact inv.setBoard _ (inv.orientation _) (inv.recorded _)
  | provide b connectedChannel =>
      obtain ⟨ssid, -, rfl⟩ := Option.map_eq_some_iff.mp h
      have recorded := inv.recorded b.castSucc
      have provided : NodeRecorded (s.setBoard b.castSucc
          ⟨(cmProvideToSiblings (s.boards b.castSucc).cm connectedChannel ssid.name).1,
            (s.boards b.castSucc).apFound, (s.boards b.castSucc).calls⟩) :=
        inv.setBoard b.castSucc (inv.orientation b.castSucc)
          ⟨recorded.blocked, recorded.index, recorded.recent, recorded.unused⟩
      refine ⟨provided.orientation, provided.recorded, fun packet hpacket => ?_⟩
      rcases List.mem_cons.mp hpacket with rfl | hpacket
      · show (UInt8.ofNat (s.boards b.castSucc).cm.orientation.val).toNat < 4
        rw [inv.orientation, UInt8.toNat_ofNat']
        exact Nat.lt_of_le_of_lt (Nat.mod_le _ _) b.isLt
      · exact inv.sent packet hpacket
  | deliver packet o networkProvided =>
      obtain ⟨suggestedChannel, stopped, hmsg⟩ :=
        onSiblingMessage_encode (s.boards o).cm networkProvided packet
      simp only [StationNode.step, hmsg, Option.ite_none_right_eq_some, Option.some.injEq] at h
      obtain ⟨⟨hsent, -⟩, rfl⟩ := h
      exact inv.setBoard o (inv.orientation o)
        ((inv.recorded o).received (inv.sent packet hsent) suggestedChannel)
  | blockFull b =>
      obtain ⟨ssid, -, hblock⟩ := Option.bind_eq_some_iff.mp h
      obtain ⟨cm, hcm, horientation, hrecorded⟩ :=
        cmBlockFullAp_of_recorded (inv.recorded b.castSucc) ssid.name
      simp only [hcm, Option.some.injEq] at hblock
      rw [← hblock]
      exact inv.setBoard _ (horientation.trans (inv.orientation _)) hrecorded

theorem nodeRecorded_of_reaches {uuid : Uuid} {s : StationNode}
    (run : (stationMachine uuid).Reaches StationNode.start s) : NodeRecorded s :=
  run.invariant
    ⟨fun _ => rfl, fun o => recorded_cmInit o, fun _ h => absurd h List.not_mem_nil⟩
    fun _ _ _ inv _ hstep => inv.next hstep

/-! ## What the lists block -/

theorem mem_storedUuids {calls : List CmCall} {entry : List UInt8} :
    entry ∈ storedUuids calls ↔
      (∃ o packet, lastReceived calls o = some packet ∧ uuidOf packet.networkName = entry) ∨
        ∃ p name, (fullCalls calls)[p]? = some name ∧
          (fullCalls calls).length ≤ p + maxPeers ∧ uuidOf name = entry := by
  rw [storedUuids, List.mem_append]
  apply or_congr
  · simp [List.mem_filterMap, List.mem_finRange]
  · rw [List.mem_map]
    constructor
    · rintro ⟨name, hname, rfl⟩
      obtain ⟨j, hj⟩ := List.mem_iff_getElem?.mp hname
      rw [List.getElem?_take] at hj
      split at hj
      · rename_i hlt
        have hlength := (List.getElem?_eq_some_iff.mp hj).1
        rw [List.length_reverse] at hlength
        rw [List.getElem?_reverse hlength] at hj
        exact ⟨_, name, hj, by have hlt' : j < 4 := hlt; show _ ≤ _ + 4; omega, rfl⟩
      · cases hj
    · rintro ⟨p, name, hp, hrecent, rfl⟩
      have hlength := (List.getElem?_eq_some_iff.mp hp).1
      refine ⟨name, List.mem_iff_getElem?.mpr ⟨(fullCalls calls).length - 1 - p, ?_⟩, rfl⟩
      have hrecent' : (fullCalls calls).length ≤ p + 4 := hrecent
      have hback : (fullCalls calls).length - 1 - ((fullCalls calls).length - 1 - p) = p := by
        omega
      rw [List.getElem?_take, if_pos (show _ < 4 by omega), List.getElem?_reverse (by omega),
        hback, hp]

theorem length_storedUuids (calls : List CmCall) : (storedUuids calls).length ≤ 8 := by
  have hfirst := List.length_filterMap_le
    (fun o => (lastReceived calls o).map fun packet => uuidOf packet.networkName)
    (List.finRange maxPeers)
  have hsecond := List.length_take_le maxPeers (fullCalls calls).reverse
  have hpeers : maxPeers = 4 := rfl
  rw [List.length_finRange] at hfirst
  rw [storedUuids, List.length_append, List.length_map]
  omega

theorem length_uuidOf (networkName : NetworkName) : (uuidOf networkName).length ≤ 12 := by
  refine (length_cString_le _ []).trans ?_
  rw [List.length_take]
  exact Nat.min_le_left _ _

theorem short_storedUuids {calls : List CmCall} {entry : List UInt8}
    (h : entry ∈ storedUuids calls) : entry.length ≤ 12 := by
  rcases mem_storedUuids.mp h with ⟨_, _, -, rfl⟩ | ⟨_, _, -, -, rfl⟩
  · exact length_uuidOf _
  · exact length_uuidOf _

/-- The UUID of a placeholder. -/
def placeholderUuid (i : Fin maxPeers) : Uuid :=
  ⟨List.replicate 11 0 ++ [i.succ.castLE (by decide)], by simp⟩

theorem bytes_placeholderUuid (i : Fin maxPeers) :
    (placeholderUuid i).bytes = cString (placeholder i.val) := by
  revert i
  decide

theorem not_infix_of_placeholder {i : Nat} (hi : i < maxPeers) {side : Fin 4} {uuid : Uuid}
    (hnot : ¬ Uuid.IsPlaceholder uuid) : ¬ cString (placeholder i) <:+: nodeSsid side uuid := by
  intro h
  have hbytes := bytes_placeholderUuid ⟨i, hi⟩
  rw [← hbytes, bytes_infix_nodeSsid] at h
  exact hnot ⟨i, hi, by rw [← h, hbytes]⟩

/-- Of the places of a round-robin list, each of the first `length` was written by one of the last
four calls. -/
theorem exists_recent {length k : Nat} (hk : k < length) (hk4 : k < 4) :
    ∃ p < length, length ≤ p + 4 ∧ p % 4 = k :=
  ⟨length - 1 - (length - 1 - k) % 4, by omega, by omega, by omega⟩

/-- A node's network is blocked when a stored UUID is found in its SSID. -/
theorem cmIsBlockedUuid_iff_found {cm : State} {calls : List CmCall} (inv : Recorded cm calls)
    (side : Fin 4) {other : Uuid} (hnot : ¬ Uuid.IsPlaceholder other) :
    cmIsBlockedUuid cm (recordOf (nodeSsid side other)) = true ↔
      ∃ entry ∈ storedUuids calls, entry <:+: nodeSsid side other := by
  simp only [cmIsBlockedUuid, cString_recordOf, List.any_eq_true, List.mem_finRange, true_and,
    Bool.or_eq_true, strstr_iff]
  constructor
  · rintro ⟨i, hblocked | hfull⟩
    · change cString (cm.blockedNetworks.get i) <:+: nodeSsid side other at hblocked
      rw [inv.blocked] at hblocked
      cases hlast : lastReceived calls i with
      | none =>
          rw [hlast] at hblocked
          exact absurd hblocked (not_infix_of_placeholder i.isLt hnot)
      | some packet =>
          rw [hlast] at hblocked
          exact ⟨_, mem_storedUuids.mpr (.inl ⟨i, packet, hlast, rfl⟩), hblocked⟩
    · have hget : cm.fullNetworks[i.val]? = some cm.fullNetworks[i] :=
        Vector.getElem?_eq_getElem i.isLt
      by_cases hi : (fullCalls calls).length ≤ i.val
      · rw [inv.unused i.val i.isLt hi] at hget
        rw [← Option.some.inj hget] at hfull
        exact absurd hfull (not_infix_of_placeholder i.isLt hnot)
      · obtain ⟨p, hp, hrecent, hmod⟩ := exists_recent (Nat.lt_of_not_le hi) i.isLt
        have hname := List.getElem?_eq_getElem hp
        have hentry := inv.recent p _ hname hrecent
        rw [hmod, hget] at hentry
        rw [Option.some.inj hentry] at hfull
        exact ⟨_, mem_storedUuids.mpr (.inr ⟨p, _, hname, hrecent, rfl⟩), hfull⟩
  · rintro ⟨entry, hentry, hinfix⟩
    rcases mem_storedUuids.mp hentry with ⟨o, packet, hlast, rfl⟩ | ⟨p, name, hp, hrecent, rfl⟩
    · refine ⟨o, .inl ?_⟩
      change cString (cm.blockedNetworks.get o) <:+: nodeSsid side other
      rw [inv.blocked, hlast]
      exact hinfix
    · have hlt : p % maxPeers < maxPeers := Nat.mod_lt _ (by decide)
      have hget := inv.recent p name hp hrecent
      rw [Vector.getElem?_eq_getElem hlt] at hget
      refine ⟨⟨p % maxPeers, hlt⟩, .inr ?_⟩
      rw [Fin.getElem_fin, Option.some.inj hget]
      exact hinfix

theorem ssidIsNs_recordOf (side : Fin 4) (uuid : Uuid) :
    ssidIsNs (recordOf (nodeSsid side uuid)) = decide (side.val < 2) := by
  have hbyte : (recordOf (nodeSsid side uuid)).toList.getD ssidOrientationOffset 0 =
      (ssidHead side).getD 4 0 := by
    rw [List.getD_eq_getElem?_getD, recordOf, Vector.getElem?_toList, Vector.getElem?_ofFn,
      dif_pos (by decide), Option.getD_some, nodeSsid_eq, List.getD_eq_getElem?_getD,
      List.getD_eq_getElem?_getD,
      List.getElem?_append_left (by rw [(ssidHead_facts side).1]; decide)]
    rfl
  rw [ssidIsNs, hbyte]
  clear hbyte
  revert side
  decide

theorem staIsNs_eq (o : NodeOrientation) : staIsNs o = decide (o.val < 2) := by
  revert o
  decide

/-- A node's network is rejected for being blocked, the own one, or of the other pair of sides. -/
theorem isNetworkAllowed_nodeSsid (cm : State) (uuid other : Uuid) (side : Fin 4)
    (o : NodeOrientation) :
    isNetworkAllowed cm uuid.bytes nodeNamePrefix (recordOf (nodeSsid side other)) o = false ↔
      cmIsBlockedUuid cm (recordOf (nodeSsid side other)) = true ∨ other = uuid ∨
        ¬ (side.val < 2 ↔ o.val < 2) := by
  have hfound : strstr (nodeSsid side other) nodeNamePrefix = true := by
    rw [strstr_iff, nodeSsid_eq, ssidHead, List.append_assoc]
    exact (List.prefix_append _ _).isInfix
  have hown : strstr (nodeSsid side other) uuid.bytes = true ↔ other = uuid := by
    rw [strstr_iff, bytes_infix_nodeSsid, eq_comm]
  rw [isNetworkAllowed, cString_recordOf, hfound, if_neg (by simp), ssidIsNs_recordOf, staIsNs_eq]
  by_cases hother : other = uuid
  · rw [if_pos (hown.mpr hother)]
    simp [hother]
  · rw [if_neg (fun h => hother (hown.mp h))]
    by_cases hblocked : cmIsBlockedUuid cm (recordOf (nodeSsid side other)) = true
    · simp [hblocked]
    · simp [hblocked, hother]

/-- A board blocks and rejects exactly the networks of nodes that it should if and only if each
UUID it has stored is harmless. -/
theorem blocksExactly_of_recorded (uuid : Uuid) (o : NodeOrientation) {board : StationBoard}
    (recorded : Recorded board.cm board.calls) :
    BlocksExactly uuid o board ↔ ∀ entry ∈ storedUuids board.calls, Harmless entry := by
  rw [← found_iff_stored_iff (length_storedUuids _) fun _ h => short_storedUuids h]
  constructor
  · intro exactly side other hnot
    rw [← cmIsBlockedUuid_iff_found recorded side hnot]
    exact exactly.blocked side other hnot
  · intro stored
    have blocked : ∀ side other, ¬ Uuid.IsPlaceholder other →
        (cmIsBlockedUuid board.cm (recordOf (nodeSsid side other)) = true ↔
          other.bytes ∈ storedUuids board.calls) := by
      intro side other hnot
      rw [cmIsBlockedUuid_iff_found recorded side hnot]
      exact stored side other hnot
    refine ⟨blocked, fun side other hnot => ?_⟩
    rw [isNetworkAllowed_nodeSsid, blocked side other hnot]

/-- In every run of a node the lists of each board block and reject exactly the networks of nodes
that they should if and only if each UUID stored there is harmless. -/
theorem blocksExactly_iff (uuid : Uuid) {s : StationNode}
    (run : (stationMachine uuid).Reaches StationNode.start s) (o : NodeOrientation) :
    BlocksExactly uuid o (s.boards o) ↔
      ∀ entry ∈ storedUuids (s.boards o).calls, Harmless entry :=
  blocksExactly_of_recorded uuid o ((nodeRecorded_of_reaches run).recorded o)

/-! ## One connection -/

/-- The packet of N, connected to a network on channel 6. -/
def connectionPacket (ssid : SsidRecord) : CmMessage :=
  (cmProvideToSiblings (cmInit 0) 6 ssid.name).2

/-- N finds a network and connects, and S hears of it. -/
def oneConnection (ssid : SsidRecord) : List StationLabel :=
  [.find 0 ssid, .provide 0 6, .deliver (connectionPacket ssid) 1 false]

theorem run_oneConnection {uuid : Uuid} {ssid : SsidRecord}
    (accepted : isNetworkAllowed (cmInit 0) uuid.bytes nodeNamePrefix ssid.name 0 = true) :
    ∃ s, (stationMachine uuid).run StationNode.start (oneConnection ssid) = some s ∧
      (s.boards 1).calls = [.received (connectionPacket ssid)] := by
  obtain ⟨cm, stopped, hmsg⟩ : ∃ cm stopped,
      onSiblingMessage (cmInit 1) false (connectionPacket ssid).encode = .ok (cm, stopped) := by
    obtain ⟨_, _, hmsg⟩ := onSiblingMessage_encode (cmInit 1) false (connectionPacket ssid)
    exact ⟨_, _, hmsg⟩
  have hfind : StationNode.start.step uuid (.find 0 ssid) =
      some (StationNode.start.setBoard 0 ⟨cmInit 0, some ssid, []⟩) := if_pos accepted
  let provided : StationNode :=
    { (StationNode.start.setBoard 0 ⟨cmInit 0, some ssid, []⟩).setBoard 0
        ⟨(cmProvideToSiblings (cmInit 0) 6 ssid.name).1, some ssid, []⟩ with
      sent := [connectionPacket ssid] }
  have hprovide : (StationNode.start.setBoard 0 ⟨cmInit 0, some ssid, []⟩).step uuid
      (.provide 0 6) = some provided := rfl
  have hboard : provided.boards 1 = ⟨cmInit 1, none, []⟩ := rfl
  have hother : (connectionPacket ssid).orientation.toNat ≠ (1 : NodeOrientation).val := by
    show (0 : UInt8).toNat ≠ 1
    decide
  have hdeliver : provided.step uuid (.deliver (connectionPacket ssid) 1 false) =
      some (provided.setBoard 1 ⟨cm, none, [.received (connectionPacket ssid)]⟩) := by
    rw [StationNode.step, if_pos ⟨List.mem_singleton.mpr rfl, hother⟩, hboard, hmsg]
    rfl
  refine ⟨provided.setBoard 1 ⟨cm, none, [.received (connectionPacket ssid)]⟩, ?_, rfl⟩
  have hrun : (stationMachine uuid).run StationNode.start (oneConnection ssid) =
      (StationNode.start.step uuid (.find 0 ssid)).bind fun s =>
        (s.step uuid (.provide 0 6)).bind fun s =>
          (s.step uuid (.deliver (connectionPacket ssid) 1 false)).bind some := rfl
  rw [hrun, hfind, Option.bind_some, hprovide, Option.bind_some, hdeliver, Option.bind_some]

theorem storedUuids_oneConnection (ssid : SsidRecord) :
    storedUuids [.received (connectionPacket ssid)] =
      [uuidOf (connectionPacket ssid).networkName] := by
  rfl

/-- The record of a text of at most 32 bytes. -/
def SsidRecord.ofText (text : List UInt8) (fits : text.length ≤ 32) : SsidRecord :=
  ⟨recordOf text, by simp [recordOf, List.getElem?_eq_none fits]⟩

/-- A node 0123456789AB that hears of its neighbour AAAAAAAAAAAA blocks just that one. -/
theorem blocksExactly_neighbour : ∃ s : StationNode, storedUuids (s.boards 1).calls =
      [List.replicate 12 0x41] ∧
    BlocksExactly ⟨[0, 1, 2, 3, 4, 5, 6, 7, 8, 9, 10, 11], rfl⟩ 1 (s.boards 1) := by
  let uuid : Uuid := ⟨[0, 1, 2, 3, 4, 5, 6, 7, 8, 9, 10, 11], rfl⟩
  let neighbour : Uuid := ⟨List.replicate 12 10, rfl⟩
  have accepted : isNetworkAllowed (cmInit 0) uuid.bytes nodeNamePrefix
      (SsidRecord.ofText (nodeSsid 1 neighbour) (by decide)).name 0 = true := by decide
  obtain ⟨s, hrun, hcalls⟩ := run_oneConnection accepted
  have hstored : storedUuids (s.boards 1).calls = [List.replicate 12 0x41] := by
    rw [hcalls, storedUuids_oneConnection]
    decide
  refine ⟨s, hstored, (blocksExactly_iff uuid (Machine.reaches_of_run hrun) 1).mpr ?_⟩
  intro entry hentry
  rw [hstored, List.mem_singleton] at hentry
  exact .inl ⟨neighbour, by rw [hentry]; rfl⟩

/-- The SSID I4A_N_ is accepted and leaves an empty UUID at S, which then blocks every network,
here that of a node AAAAAAAAAAAA of which nothing was ever stored. -/
theorem blocksExactly_fails_short : ∃ s : StationNode,
    (stationMachine ⟨[0, 1, 2, 3, 4, 5, 6, 7, 8, 9, 10, 11], rfl⟩).Reaches StationNode.start s ∧
      storedUuids (s.boards 1).calls = [[]] ∧
      cmIsBlockedUuid (s.boards 1).cm (recordOf (nodeSsid 1 ⟨List.replicate 12 10, rfl⟩)) = true ∧
      ¬ BlocksExactly ⟨[0, 1, 2, 3, 4, 5, 6, 7, 8, 9, 10, 11], rfl⟩ 1 (s.boards 1) := by
  let uuid : Uuid := ⟨[0, 1, 2, 3, 4, 5, 6, 7, 8, 9, 10, 11], rfl⟩
  let neighbour : Uuid := ⟨List.replicate 12 10, rfl⟩
  have accepted : isNetworkAllowed (cmInit 0) uuid.bytes nodeNamePrefix
      (SsidRecord.ofText (ascii ['I', '4', 'A', '_', 'N', '_']) (by decide)).name 0 = true := by
    decide
  obtain ⟨s, hrun, hcalls⟩ := run_oneConnection accepted
  have run := Machine.reaches_of_run hrun
  have hstored : storedUuids (s.boards 1).calls = [[]] := by
    rw [hcalls, storedUuids_oneConnection]
    decide
  have hnot : ¬ Uuid.IsPlaceholder neighbour := by
    have all : ∀ i < maxPeers, neighbour.bytes ≠ cString (placeholder i) := by decide
    rintro ⟨i, hi, h⟩
    exact all i hi h
  have hblocked : cmIsBlockedUuid (s.boards 1).cm (recordOf (nodeSsid 1 neighbour)) = true := by
    rw [cmIsBlockedUuid_iff_found ((nodeRecorded_of_reaches run).recorded 1) 1 hnot, hstored]
    exact ⟨[], List.mem_singleton.mpr rfl, List.nil_infix⟩
  refine ⟨s, run, hstored, hblocked, fun exactly => ?_⟩
  have hmem := (exactly.blocked 1 neighbour hnot).mp hblocked
  rw [hstored, List.mem_singleton] at hmem
  exact absurd hmem (by decide)

end ChannelManager

end I4A
