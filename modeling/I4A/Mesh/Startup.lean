import I4A.Core.Sweep
import I4A.Integration.BlockedNetworks
import I4A.Integration.Components
import I4A.Mesh.Model
import I4A.Node.Hooks

/-! # Start of a node

`node_setup`, `reset_manager.c` and `app_main`. The center board tells its siblings to restart and
then broadcasts the UUID and the kind of the node; the others wait for it and ask for a reset when
it does not come. Messages of the ring may be lost, and boards may restart at any time.
-/

namespace I4A

open ChannelManager (Uuid)
open Components (ResetManager rmOpcodeReset rmOpcodeStartup rmOnSiblingMessage)

/-! ## config.c -/

/-- `node_get_config_orientation` of the three pins that `config_setup` reads. -/
def nodeGetConfigOrientation (configBits : BitVec 3) : Orientation :=
  if configBits = 0 then .north
  else if configBits = 1 then .south
  else if configBits = 2 then .east
  else if configBits = 3 then .west
  else .center

/-- `CONFIG_MODE_PEER_LINK` and `CONFIG_MODE_ROOT`. -/
def configModePeerLink : Nat := 0
def configModeRoot : Nat := 5

/-- `s_config.mode`. -/
def configMode (configBits : BitVec 3) : Nat :=
  if configBits >>> 2 = 0 then configModePeerLink else configBits.toNat

/-! ## reset_manager.c -/

/-- `UUID_LENGTH`, with the end of the text. -/
abbrev rmUuidLength : Nat := 13

/-- `RESET_TIMEOUT_US`. -/
def resetTimeoutUs : Int64 := 30000000

theorem highDigit_lt (b : UInt8) : b.toNat / 16 < 16 := by
  have hlt : b.toNat < 256 := b.toNat_lt
  omega

theorem lowDigit_lt (b : UInt8) : b.toNat % 16 < 16 := Nat.mod_lt _ (by decide)

theorem zeroDigit_lt : 0 < 16 := by decide

/-- The two digits that `"%02X"` prints of a byte. -/
def hexByte (b : UInt8) : List (Fin 16) :=
  [⟨b.toNat / 16, highDigit_lt b⟩, ⟨b.toNat % 16, lowDigit_lt b⟩]

theorem length_hexBytes (bytes : List UInt8) :
    (bytes.flatMap hexByte).length = 2 * bytes.length := by
  induction bytes with
  | nil => rfl
  | cons b rest ih =>
      rw [List.flatMap_cons, List.length_append, ih, List.length_cons, Nat.mul_succ, Nat.add_comm]
      rfl

theorem length_macDigits (mac : Vector UInt8 6) :
    (mac.toList.flatMap hexByte).length = ChannelManager.uuidLen := by
  rw [length_hexBytes, Vector.length_toList]

/-- What `rm_generate_uuid_from_mac` prints. -/
def macUuid (mac : Vector UInt8 6) : Uuid := ⟨mac.toList.flatMap hexByte, length_macDigits mac⟩

/-- `ROOT_UUID`. -/
def rootUuid : Uuid :=
  ⟨List.replicate ChannelManager.uuidLen ⟨0, zeroDigit_lt⟩, List.length_replicate⟩

/-- `strncpy` into a `char[UUID_LENGTH]`. -/
def uuidField (text : List UInt8) : Vector UInt8 rmUuidLength :=
  ⟨(strncpy rmUuidLength text).toArray, Components.size_strncpy_uuid text⟩

/-- `rm_generate_uuid_from_mac`. -/
def rmGenerateUuidFromMac (mac : Vector UInt8 6) : Vector UInt8 rmUuidLength :=
  uuidField (macUuid mac).bytes

/-- `rm_init` at the time `now`. -/
def rmInit (now : Int64) : ResetManager where
  isUp := false
  isRoot := false
  uuid := Vector.replicate rmUuidLength 0
  lastResetTime := now

/-- `rm_broadcast_reset`, with the bytes of the broadcast. -/
def rmBroadcastReset (rm : ResetManager) (now : Int64) : ResetManager × List UInt8 :=
  ({ rm with lastResetTime := now }, [rmOpcodeReset])

/-- `rm_broadcast_startup_info`; `broadcast` is what `rs_broadcast` returns. -/
def rmBroadcastStartupInfo (rm : ResetManager) (mac : Vector UInt8 rmUuidLength)
    (isRoot broadcast : Bool) : ResetManager × List UInt8 :=
  let uuid := uuidField (if isRoot then rootUuid.bytes else mac.toList)
  let packet := rmOpcodeStartup :: strncpy rmUuidLength uuid.toList ++ [if isRoot then 1 else 0]
  ({ rm with uuid, isRoot, isUp := rm.isUp || broadcast }, packet)

/-- `rm_should_device_reset`. -/
def rmShouldDeviceReset (rm : ResetManager) (now : Int64) : Bool :=
  now - rm.lastResetTime > resetTimeoutUs

/-! ## node_setup -/

/-- What no restart changes: the pins of every board, which are set for its place in the node, and
its MAC address. -/
structure NodeBoards where
  configBits : Orientation → BitVec 3
  mac : Orientation → Vector UInt8 6
  wired : ∀ o, nodeGetConfigOrientation (configBits o) = o

/-- `config_mode_is(CONFIG_MODE_ROOT)` on the center board. -/
def NodeBoards.isRoot (node : NodeBoards) : Bool :=
  configMode (node.configBits .center) = configModeRoot

/-- The UUID of the node. -/
def NodeBoards.uuid (node : NodeBoards) : Uuid :=
  if node.isRoot then rootUuid else macUuid (node.mac .center)

/-- Where `node_setup` is. -/
inductive SetupPhase where
  /-- `while (!rm_broadcast_reset())`. -/
  | resetting
  /-- `while (!rm_broadcast_startup_info(..))`, on the center board. -/
  | announcing
  /-- `while (!rm_is_device_up())`, on the other boards. -/
  | polling
  | done
  deriving DecidableEq

structure SetupBoard where
  phase : SetupPhase
  rm : ResetManager
  /-- `node_device_is_center_root`. -/
  isCenterRoot : Bool
  /-- The callback of a reset waits before it calls `esp_restart`. -/
  restarting : Bool

/-- A message of the reset managers on its way. -/
structure RmPacket where
  dst : Orientation
  msg : List UInt8
  deriving DecidableEq

structure Setup where
  boards : Orientation → SetupBoard
  packets : List RmPacket

/-- A board that enters the loops of `node_setup`. -/
def nodeSetup (o : Orientation) (now : Int64) : SetupBoard where
  phase := if o = .center then .resetting else .polling
  rm := rmInit now
  isCenterRoot := false
  restarting := false

/-- One turn of the loops of `node_setup`, with the message that it broadcasts. -/
def SetupBoard.turn (node : NodeBoards) (o : Orientation) (b : SetupBoard) (now : Int64)
    (broadcast : Bool) : Option (SetupBoard × List (List UInt8)) :=
  match b.phase with
  | .resetting =>
      let result := rmBroadcastReset b.rm now
      let next : SetupPhase := if o = .center then .announcing else .polling
      some ({ b with rm := result.1, phase := if broadcast then next else .resetting }, [result.2])
  | .announcing =>
      let result := rmBroadcastStartupInfo b.rm (rmGenerateUuidFromMac (node.mac o))
        (configMode (node.configBits o) = configModeRoot) broadcast
      if broadcast then
        some ({ b with rm := result.1, phase := .done, isCenterRoot := result.1.isRoot },
          [result.2])
      else some ({ b with rm := result.1 }, [result.2])
  | .polling =>
      if b.rm.isUp then some ({ b with phase := .done, isCenterRoot := b.rm.isRoot }, [])
      else if rmShouldDeviceReset b.rm now then some ({ b with phase := .resetting }, [])
      else some (b, [])
  | .done => none

inductive SetupLabel where
  /-- A turn of the board's main task; a broadcast may fail after it reached some boards. -/
  | turn (o : Orientation) (now : Int64) (broadcast : Bool)
  /-- `rm_on_sibling_message` on a board whose callback is not waiting for its restart. -/
  | deliver (p : RmPacket) (now : Int64)
  | lose (p : RmPacket)
  /-- `esp_restart` of the callback. -/
  | restart (o : Orientation) (now : Int64)
  /-- A restart for any other reason. -/
  | crash (o : Orientation) (now : Int64)

namespace Setup

def start (now : Orientation → Int64) : Setup where
  boards := fun o => nodeSetup o (now o)
  packets := []

def setBoard (s : Setup) (o : Orientation) (b : SetupBoard) : Setup :=
  { s with boards := Function.update s.boards o b }

/-- The copies of a board's broadcasts. -/
def copies (o : Orientation) (msgs : List (List UInt8)) : List RmPacket :=
  msgs.flatMap fun msg => o.siblings.map (⟨·, msg⟩)

/-- `rm_on_sibling_message` of the board that the message is for. -/
def deliver (s : Setup) (p : RmPacket) (now : Int64) : Setup :=
  let b := s.boards p.dst
  let result := rmOnSiblingMessage b.rm now p.msg
  { s.setBoard p.dst { b with rm := result.1, restarting := result.2 } with
    packets := s.packets.erase p }

def step (node : NodeBoards) (s : Setup) : SetupLabel → Option Setup
  | .turn o now broadcast =>
      ((s.boards o).turn node o now broadcast).map fun result =>
        { s.setBoard o result.1 with packets := s.packets ++ copies o result.2 }
  | .deliver p now =>
      if p ∈ s.packets ∧ (s.boards p.dst).restarting = false then some (s.deliver p now) else none
  | .lose p => if p ∈ s.packets then some { s with packets := s.packets.erase p } else none
  | .restart o now =>
      if (s.boards o).restarting then some (s.setBoard o (nodeSetup o now)) else none
  | .crash o now => some (s.setBoard o (nodeSetup o now))

end Setup

def setupMachine (node : NodeBoards) : Machine Setup SetupLabel := ⟨Setup.step node⟩

/-! ## app_main -/

/-- The routing module of a board as `app_main` leaves it. -/
def appMainRouting (o : Orientation) (isCenterRoot : Bool) : Routing :=
  let rt :=
    if o = .center then
      if isCenterRoot then rtInitRoot o rootNetwork.addr rootNetwork.mask else rtInitHome o
    else rtInitForwarder o
  let rt := rtOnStart rt
  { rt with role := (rtOnTick rt.role 1).1 }

/-- The network settings as `app_main` leaves them: only the root is an access point from the
start. -/
def appMainSettings (o : Orientation) (isCenterRoot : Bool) : Network :=
  if o = .center ∧ isCenterRoot then rootNetwork else defaultSettings

/-- The node of five boards that have run `app_main`. -/
def Setup.appMain (s : Setup) : HookedNode where
  node :=
    { table := (appMainRouting .center (s.boards .center).isCenterRoot).routingTable
      roles := fun o => (appMainRouting o (s.boards o).isCenterRoot).role
      inbox := fun o => (appMainRouting o (s.boards o).isCenterRoot).internalQueue }
  settings := fun o => appMainSettings o (s.boards o).isCenterRoot

/-! ## The startup message -/

/-- The packet of the node's center board. -/
def NodeBoards.startupPacket (node : NodeBoards) : List UInt8 :=
  rmOpcodeStartup :: strncpy rmUuidLength (uuidField node.uuid.bytes).toList ++
    [if node.isRoot then 1 else 0]

/-- The manager has the node's UUID and kind. -/
def NodeBoards.Known (node : NodeBoards) (rm : ResetManager) : Prop :=
  rm.uuid.toList = node.uuid.bytes ++ [0] ∧ rm.isRoot = node.isRoot

theorem cString_bytes (uuid : Uuid) : cString uuid.bytes = uuid.bytes := by
  rw [cString, List.takeWhile_eq_self_iff]
  intro b hb
  simpa using (ChannelManager.Uuid.ne_of_mem hb).1

theorem strncpy_bytes (uuid : Uuid) : strncpy rmUuidLength uuid.bytes = uuid.bytes ++ [0] := by
  rw [strncpy, cString_bytes, List.take_of_length_le (by simp [rmUuidLength]),
    ChannelManager.Uuid.length_bytes]
  rfl

theorem uuidField_toList (uuid : Uuid) : (uuidField uuid.bytes).toList = uuid.bytes ++ [0] :=
  strncpy_bytes uuid

theorem strncpy_terminated (uuid : Uuid) :
    strncpy rmUuidLength (uuid.bytes ++ [0]) = uuid.bytes ++ [0] := by
  have htext : cString (uuid.bytes ++ [0]) = uuid.bytes :=
    cString_append_zero (fun b hb => (ChannelManager.Uuid.ne_of_mem hb).1) []
  rw [strncpy, htext, List.take_of_length_le (by simp [rmUuidLength]),
    ChannelManager.Uuid.length_bytes]
  rfl

theorem uuidField_terminated (uuid : Uuid) :
    uuidField (uuid.bytes ++ [0]) = uuidField uuid.bytes := by
  apply Vector.toList_inj.mp
  rw [uuidField_toList]
  exact strncpy_terminated uuid

theorem set_uuidField (uuid : Uuid) :
    (uuidField uuid.bytes).set 12 0 Components.uuidEnd_lt = uuidField uuid.bytes := by
  apply Vector.toList_inj.mp
  rw [Vector.toList_set, uuidField_toList,
    List.set_append_right 12 0 (by rw [ChannelManager.Uuid.length_bytes]),
    ChannelManager.Uuid.length_bytes]
  rfl

theorem NodeBoards.startupPacket_eq (node : NodeBoards) :
    node.startupPacket =
      rmOpcodeStartup :: (node.uuid.bytes ++ [0]) ++ [if node.isRoot then 1 else 0] := by
  rw [startupPacket, uuidField_toList, strncpy_terminated]

/-- What the center board broadcasts and keeps. -/
theorem rmBroadcastStartupInfo_center (node : NodeBoards) (rm : ResetManager) (broadcast : Bool) :
    rmBroadcastStartupInfo rm (rmGenerateUuidFromMac (node.mac .center))
        (configMode (node.configBits .center) = configModeRoot) broadcast =
      ({ rm with
        uuid := uuidField node.uuid.bytes
        isRoot := node.isRoot
        isUp := rm.isUp || broadcast }, node.startupPacket) := by
  have huuid : uuidField (if node.isRoot then rootUuid.bytes
      else (rmGenerateUuidFromMac (node.mac .center)).toList) = uuidField node.uuid.bytes := by
    rw [NodeBoards.uuid]
    split
    · rfl
    · rw [rmGenerateUuidFromMac, uuidField_toList, uuidField_terminated]
  change rmBroadcastStartupInfo rm _ node.isRoot broadcast = _
  rw [rmBroadcastStartupInfo, huuid]
  rfl

theorem rmOnSiblingMessage_body (rm : ResetManager) (now : Int64) {body : List UInt8}
    (hbody : body.length = 14) :
    rmOnSiblingMessage rm now (rmOpcodeStartup :: body) =
      ({ rm with
        uuid := (uuidField (body.take 13)).set 12 0 Components.uuidEnd_lt
        isRoot := body.getD 13 0 ≠ 0
        isUp := true }, false) := by
  have hlength : (rmOpcodeStartup :: body).length = Components.sizeofRmStartupPacket := by
    rw [List.length_cons, hbody]
    rfl
  rw [rmOnSiblingMessage, if_neg (by decide), if_pos rfl, if_neg (not_not.mpr hlength)]
  rfl

/-- What a sibling makes of the startup message. -/
theorem rmOnSiblingMessage_startup (node : NodeBoards) (rm : ResetManager) (now : Int64) :
    rmOnSiblingMessage rm now node.startupPacket =
      ({ rm with uuid := uuidField node.uuid.bytes, isRoot := node.isRoot, isUp := true },
        false) := by
  have hlength : (node.uuid.bytes ++ [(0 : UInt8)]).length = 13 := by
    rw [List.length_append, ChannelManager.Uuid.length_bytes]
    rfl
  have htake : ((node.uuid.bytes ++ [0]) ++ [if node.isRoot then 1 else 0]).take 13 =
      node.uuid.bytes ++ [0] := List.take_left' hlength
  have hflag : ((node.uuid.bytes ++ [0]) ++ [if node.isRoot then 1 else 0]).getD 13 0 =
      if node.isRoot then 1 else 0 := by
    rw [List.getD_eq_getElem?_getD, List.getElem?_append_right (by omega), hlength]
    rfl
  have hroot : decide ((if node.isRoot then (1 : UInt8) else 0) ≠ 0) = node.isRoot := by
    cases node.isRoot <;> decide
  rw [node.startupPacket_eq, List.cons_append, rmOnSiblingMessage_body _ _ (by simp), htake, hflag,
    hroot, uuidField_terminated, set_uuidField]

/-! ## The invariant -/

namespace Setup

variable {node : NodeBoards} {s t : Setup}

/-- What the reset managers send: a reset, or the startup message to another board than the
center. -/
def Genuine (node : NodeBoards) (p : RmPacket) : Prop :=
  p.msg = [rmOpcodeReset] ∨ (p.msg = node.startupPacket ∧ p.dst ≠ .center)

/-- A board that is up knows the node, one that waits for its restart is up, and one that has left
`node_setup` is up and keeps the node's kind. The center board does not wait for a startup message,
and no other board sends one. -/
structure BoardInv (node : NodeBoards) (o : Orientation) (b : SetupBoard) : Prop where
  known : b.rm.isUp = true → node.Known b.rm
  restarting : b.restarting = true → b.rm.isUp = true
  done : b.phase = .done → b.rm.isUp = true ∧ b.isCenterRoot = node.isRoot
  center : o = .center → b.phase ≠ .polling ∧ (b.rm.isUp = true → b.phase = .done)
  sides : o ≠ .center → b.phase ≠ .announcing

structure Inv (node : NodeBoards) (s : Setup) : Prop where
  boards : ∀ o, BoardInv node o (s.boards o)
  packets : ∀ p ∈ s.packets, Genuine node p

theorem known_startup (node : NodeBoards) (rm : ResetManager) (isUp : Bool) :
    node.Known { rm with uuid := uuidField node.uuid.bytes, isRoot := node.isRoot, isUp } :=
  ⟨uuidField_toList node.uuid, rfl⟩

theorem nodeSetup_inv (node : NodeBoards) (o : Orientation) (now : Int64) :
    BoardInv node o (nodeSetup o now) := by
  refine ⟨fun h => ?_, fun h => ?_, fun h => ?_, fun h => ⟨?_, fun h' => ?_⟩, fun h => ?_⟩
  · cases h
  · cases h
  · unfold nodeSetup at h
    split at h <;> cases h
  · rw [nodeSetup, if_pos h]
    exact SetupPhase.noConfusion
  · cases h'
  · rw [nodeSetup, if_neg h]
    exact SetupPhase.noConfusion

/-- A reset restarts a board that is up; a board that is not only notes the time. -/
theorem rmOnSiblingMessage_reset (rm : ResetManager) (now : Int64) :
    rmOnSiblingMessage rm now [rmOpcodeReset] =
      if rm.isUp then (rm, true) else ({ rm with lastResetTime := now }, false) := by
  rw [rmOnSiblingMessage, if_pos rfl]

/-! ## Turns of node_setup -/

section Turns

variable (node : NodeBoards) (o : Orientation) {b : SetupBoard} (now : Int64) (broadcast : Bool)

theorem turn_resetting (h : b.phase = .resetting) :
    b.turn node o now broadcast = some
      ({ b with
        rm := { b.rm with lastResetTime := now }
        phase := if broadcast then (if o = .center then .announcing else .polling)
          else .resetting }, [[rmOpcodeReset]]) := by
  unfold SetupBoard.turn
  rw [h]
  rfl

theorem turn_announcing (h : b.phase = .announcing) :
    b.turn node .center now broadcast = some
      ({ b with
        rm := { b.rm with
          uuid := uuidField node.uuid.bytes
          isRoot := node.isRoot
          isUp := b.rm.isUp || broadcast }
        phase := if broadcast then .done else .announcing
        isCenterRoot := if broadcast then node.isRoot else b.isCenterRoot },
        [node.startupPacket]) := by
  unfold SetupBoard.turn
  rw [h]
  simp only [rmBroadcastStartupInfo_center]
  cases broadcast with
  | true => rfl
  | false => rw [← h]; rfl

theorem turn_up (h : b.phase = .polling) (hup : b.rm.isUp = true) :
    b.turn node o now broadcast =
      some ({ b with phase := .done, isCenterRoot := b.rm.isRoot }, []) := by
  unfold SetupBoard.turn
  rw [h]
  exact if_pos hup

theorem turn_down (h : b.phase = .polling) (hup : b.rm.isUp = false) :
    b.turn node o now broadcast =
      if rmShouldDeviceReset b.rm now then some ({ b with phase := .resetting }, [])
      else some (b, []) := by
  unfold SetupBoard.turn
  rw [h]
  exact if_neg (by simp [hup])

theorem turn_done (h : b.phase = .done) : b.turn node o now broadcast = none := by
  unfold SetupBoard.turn
  rw [h]

end Turns

/-- A turn keeps the invariant of the board, and what it broadcasts is genuine. -/
theorem BoardInv.turn {o : Orientation} {b b' : SetupBoard} {now : Int64} {broadcast : Bool}
    {msgs : List (List UInt8)} (inv : BoardInv node o b)
    (h : b.turn node o now broadcast = some (b', msgs)) :
    BoardInv node o b' ∧
      ∀ msg ∈ msgs, msg = [rmOpcodeReset] ∨ (msg = node.startupPacket ∧ o = .center) := by
  cases hphase : b.phase with
  | resetting =>
      rw [turn_resetting node o now broadcast hphase] at h
      cases h
      have hdown : o = .center → b.rm.isUp = false := by
        intro ho
        by_contra hup
        have hdone := (inv.center ho).2 (by simpa using hup)
        rw [hdone] at hphase
        cases hphase
      refine ⟨⟨inv.known, inv.restarting, fun hdone => ?_, fun ho => ⟨?_, fun hup => ?_⟩,
        fun ho => ?_⟩, fun msg hmsg => .inl (by simpa using hmsg)⟩
      · cases broadcast <;> simp at hdone
        split at hdone <;> cases hdone
      · cases broadcast <;> simp [ho]
      · rw [hdown ho] at hup
        cases hup
      · cases broadcast <;> simp [ho]
  | announcing =>
      have ho : o = .center := by
        by_contra hne
        exact inv.sides hne hphase
      subst ho
      rw [turn_announcing node now broadcast hphase] at h
      cases h
      refine ⟨⟨fun _ => known_startup node b.rm _, fun hrestart => ?_, fun hdone => ?_,
        fun _ => ⟨?_, fun hup => ?_⟩, fun hne => absurd rfl hne⟩,
        fun msg hmsg => .inr ⟨by simpa using hmsg, rfl⟩⟩
      · simp [inv.restarting hrestart]
      · cases broadcast <;> simp at hdone
        exact ⟨Bool.or_true _, rfl⟩
      · cases broadcast <;> simp
      · cases broadcast with
        | true => rfl
        | false =>
            have hold : b.rm.isUp = true := by simpa using hup
            have hdone := (inv.center rfl).2 hold
            rw [hdone] at hphase
            cases hphase
  | polling =>
      have ho : o ≠ .center := fun ho => (inv.center ho).1 hphase
      cases hup : b.rm.isUp with
      | true =>
          rw [turn_up node o now broadcast hphase hup] at h
          cases h
          exact ⟨⟨inv.known, inv.restarting, fun _ => ⟨hup, (inv.known hup).2⟩,
            fun hc => absurd hc ho, fun _ => SetupPhase.noConfusion⟩, by simp⟩
      | false =>
          rw [turn_down node o now broadcast hphase hup] at h
          split at h
          · cases h
            exact ⟨⟨inv.known, inv.restarting, nofun, fun hc => absurd hc ho,
              fun _ => SetupPhase.noConfusion⟩, by simp⟩
          · cases h
            exact ⟨inv, by simp⟩
  | done =>
      rw [turn_done node o now broadcast hphase] at h
      cases h

/-- A genuine message keeps the invariant of the board that handles it. -/
theorem BoardInv.deliver {p : RmPacket} {b : SetupBoard} (inv : BoardInv node p.dst b)
    (hp : Genuine node p) (now : Int64) :
    BoardInv node p.dst { b with
      rm := (rmOnSiblingMessage b.rm now p.msg).1
      restarting := (rmOnSiblingMessage b.rm now p.msg).2 } := by
  rcases hp with hmsg | ⟨hmsg, hdst⟩
  · rw [hmsg, rmOnSiblingMessage_reset]
    cases hup : b.rm.isUp with
    | true => exact ⟨inv.known, fun _ => hup, inv.done, inv.center, inv.sides⟩
    | false =>
        refine ⟨fun h => ?_, nofun, fun h => ?_, fun ho => ⟨(inv.center ho).1, fun h => ?_⟩,
          inv.sides⟩
        · simp at h
        · have := (inv.done h).1
          rw [hup] at this
          cases this
        · simp at h
  · rw [hmsg, rmOnSiblingMessage_startup]
    exact ⟨fun _ => known_startup node b.rm true, nofun, fun h => ⟨rfl, (inv.done h).2⟩,
      fun ho => absurd ho hdst, inv.sides⟩

/-! ## Runs -/

theorem mem_copies {o : Orientation} {msgs : List (List UInt8)} {p : RmPacket} :
    p ∈ copies o msgs ↔ p.msg ∈ msgs ∧ p.dst ≠ o := by
  obtain ⟨dst, msg⟩ := p
  simp only [copies, List.mem_flatMap, List.mem_map, Orientation.mem_siblings, RmPacket.mk.injEq]
  constructor
  · rintro ⟨m, hm, d, hd, rfl, rfl⟩
    exact ⟨hm, hd⟩
  · rintro ⟨hm, hd⟩
    exact ⟨msg, hm, dst, hd, rfl, rfl⟩

theorem start_inv (node : NodeBoards) (now : Orientation → Int64) : Inv node (start now) where
  boards o := nodeSetup_inv node o (now o)
  packets _ hp := by cases hp

theorem Inv.setBoard (inv : Inv node s) {o : Orientation} {b : SetupBoard}
    (hb : BoardInv node o b) (o' : Orientation) :
    BoardInv node o' ((s.setBoard o b).boards o') := by
  unfold Setup.setBoard
  by_cases ho : o' = o
  · subst ho
    simpa using hb
  · simpa [ho] using inv.boards o'

theorem Inv.step (inv : Inv node s) {l : SetupLabel}
    (hs : (setupMachine node).step s l = some t) : Inv node t := by
  cases l with
  | turn o now broadcast =>
      simp only [setupMachine, Setup.step, Option.map_eq_some_iff] at hs
      obtain ⟨⟨b', msgs⟩, hturn, rfl⟩ := hs
      obtain ⟨hb, hmsgs⟩ := (inv.boards o).turn hturn
      refine ⟨inv.setBoard hb, fun p hp => ?_⟩
      rcases List.mem_append.mp hp with hp | hp
      · exact inv.packets p hp
      · obtain ⟨hmsg, hdst⟩ := mem_copies.mp hp
        rcases hmsgs _ hmsg with hreset | ⟨hstartup, ho⟩
        · exact .inl hreset
        · exact .inr ⟨hstartup, fun hc => hdst (hc.trans ho.symm)⟩
  | deliver p now =>
      simp only [setupMachine, Setup.step] at hs
      split at hs
      · next hp =>
        cases hs
        refine ⟨inv.setBoard ((inv.boards p.dst).deliver (inv.packets p hp.1) now),
          fun q hq => inv.packets q (List.mem_of_mem_erase hq)⟩
      · cases hs
  | lose p =>
      simp only [setupMachine, Setup.step] at hs
      split at hs
      · cases hs
        exact ⟨inv.boards, fun q hq => inv.packets q (List.mem_of_mem_erase hq)⟩
      · cases hs
  | restart o now =>
      simp only [setupMachine, Setup.step] at hs
      split at hs
      · cases hs
        exact ⟨inv.setBoard (nodeSetup_inv node o now), inv.packets⟩
      · cases hs
  | crash o now =>
      cases hs
      exact ⟨inv.setBoard (nodeSetup_inv node o now), inv.packets⟩

theorem Inv.run {now : Orientation → Int64} {guard : Setup → SetupLabel → Prop}
    (run : (setupMachine node).Executes guard (start now) s) : Inv node s :=
  run.invariant (start_inv node now) fun _ _ _ inv _ hs => inv.step hs

/-- Five boards that have left `node_setup` with the node's kind are the node whose runs start
here. -/
theorem Inv.appMain_eq (inv : Inv node s) (hdone : ∀ o, (s.boards o).phase = .done) :
    s.appMain =
      if node.isRoot then HookedNode.startRoot rootNetwork else HookedNode.startHome := by
  have hkind : ∀ o, (s.boards o).isCenterRoot = node.isRoot := fun o =>
    ((inv.boards o).done (hdone o)).2
  simp only [Setup.appMain, hkind]
  cases node.isRoot with
  | true =>
      rw [if_pos rfl, HookedNode.startRoot, HookedNode.mk.injEq]
      refine ⟨?_, funext fun o => by cases o <;> rfl⟩
      rw [Node.start, Node.mk.injEq]
      exact ⟨rfl, funext fun o => by cases o <;> rfl, funext fun o => by cases o <;> rfl⟩
  | false =>
      rw [if_neg Bool.false_ne_true, HookedNode.startHome, HookedNode.mk.injEq]
      refine ⟨?_, funext fun o => by cases o <;> rfl⟩
      rw [Node.start, Node.mk.injEq]
      exact ⟨rfl, funext fun o => by cases o <;> rfl, funext fun o => by cases o <;> rfl⟩

/-! ## Recovery -/

/-- The board's clock has not gone back since it last noted the time. -/
def ClockRuns (s : Setup) (o : Orientation) (now : Int64) : Prop :=
  0 ≤ now - (s.boards o).rm.lastResetTime

/-- Neither the ring nor a board fails, and clocks run on. -/
def Calm (s : Setup) : SetupLabel → Prop
  | .turn o now _ => s.ClockRuns o now
  | .deliver p now => s.ClockRuns p.dst now
  | .restart _ _ => True
  | .lose _ => False
  | .crash _ _ => False

theorem clockRuns_self (s : Setup) (o : Orientation) :
    s.ClockRuns o (s.boards o).rm.lastResetTime := by
  rw [ClockRuns, Int64.sub_self]
  decide

/-- No board waits for its restart. -/
def Awake (s : Setup) : Prop := ∀ o, (s.boards o).restarting = false

/-- All five boards have left `node_setup`, and none is about to restart. -/
def AllUp (s : Setup) : Prop := (∀ o, (s.boards o).phase = .done) ∧ s.Awake

@[simp] theorem setBoard_boards (s : Setup) (o o' : Orientation) (b : SetupBoard) :
    (s.setBoard o b).boards o' = if o' = o then b else s.boards o' := by
  unfold Setup.setBoard
  by_cases ho : o' = o
  · subst ho
    simp
  · simp [ho]

theorem step_turn {o : Orientation} {now : Int64} {broadcast : Bool} {b : SetupBoard}
    {msgs : List (List UInt8)} (h : (s.boards o).turn node o now broadcast = some (b, msgs)) :
    (setupMachine node).step s (.turn o now broadcast) =
      some { s.setBoard o b with packets := s.packets ++ copies o msgs } := by
  simp only [setupMachine, Setup.step, h, Option.map_some]

theorem step_deliver (node : NodeBoards) {p : RmPacket} (hp : p ∈ s.packets)
    (hawake : (s.boards p.dst).restarting = false) (now : Int64) :
    (setupMachine node).step s (.deliver p now) = some (s.deliver p now) := by
  simp only [setupMachine, Setup.step, hp, hawake, and_self, if_true]

theorem step_restart (node : NodeBoards) {o : Orientation} (h : (s.boards o).restarting = true)
    (now : Int64) :
    (setupMachine node).step s (.restart o now) = some (s.setBoard o (nodeSetup o now)) := by
  simp only [setupMachine, Setup.step, h, if_true]

theorem Inv.wakes (inv : Inv node s) :
    (setupMachine node).CanReach Calm s fun t => Inv node t ∧ t.Awake := by
  refine (Machine.CanReach.sweep (Inv node) (fun o t => (t.boards o).restarting = false)
    (fun s o inv => ?_) Orientation.all inv).mono fun t ht => ⟨ht.1, fun o => ht.2.1 o (by simp)⟩
  by_cases hawake : (s.boards o).restarting = false
  · exact .here ⟨inv, hawake, fun o' ho' => ho'⟩
  · have hstep := step_restart node (by simpa using hawake) 0
    refine .step (l := .restart o 0) trivial hstep
      (.here ⟨inv.step hstep, by simp [nodeSetup], fun o' ho' => ?_⟩)
    rw [setBoard_boards]
    split
    · rfl
    · exact ho'

theorem boards_turn {o : Orientation} {b : SetupBoard} {packets : List RmPacket}
    {P : SetupBoard → Prop} {o' : Orientation} (hb : P (s.boards o) → P b)
    (h : P (s.boards o')) : P (({ s.setBoard o b with packets } : Setup).boards o') := by
  change P ((s.setBoard o b).boards o')
  rw [setBoard_boards]
  split
  · next ho =>
    subst ho
    exact hb h
  · exact h

/-- What the last part of a start keeps. -/
structure Ready (node : NodeBoards) (s : Setup) : Prop where
  inv : Inv node s
  up : ∀ o, (s.boards o).rm.isUp = true
  awake : s.Awake

theorem Ready.polled (h : Ready node s) {o : Orientation} (hphase : (s.boards o).phase = .polling) :
    (setupMachine node).CanReach Calm s fun t => Ready node t ∧ (t.boards o).phase = .done ∧
      ∀ o', (s.boards o').phase = .done → (t.boards o').phase = .done := by
  have hstep := step_turn
    (turn_up node o (s.boards o).rm.lastResetTime true hphase (h.up o))
  refine .step (l := .turn o _ true) (s.clockRuns_self o) hstep
    (.here ⟨⟨h.inv.step hstep, fun o' => ?_, fun o' => ?_⟩, by simp, fun o' ho' => ?_⟩)
  · exact boards_turn (P := fun b => b.rm.isUp = true) id (h.up o')
  · exact boards_turn (P := fun b => b.restarting = false) id (h.awake o')
  · exact boards_turn (P := fun b => b.phase = .done) (fun _ => rfl) ho'

/-- Boards that are up leave `node_setup`. -/
theorem Ready.finishes (h : Ready node s) : (setupMachine node).CanReach Calm s AllUp := by
  refine (Machine.CanReach.sweep (Ready node) (fun o t => (t.boards o).phase = .done)
    (fun s o h => ?_) Orientation.all h).mono fun t ht => ⟨fun o => ht.2.1 o (by simp), ht.1.awake⟩
  cases hphase : (s.boards o).phase with
  | resetting =>
      have ho : o ≠ .center := by
        rintro rfl
        have hdone := ((h.inv.boards .center).center rfl).2 (h.up .center)
        rw [hdone] at hphase
        cases hphase
      have hstep := step_turn
        (turn_resetting node o (s.boards o).rm.lastResetTime true hphase)
      refine .step (l := .turn o _ true) (s.clockRuns_self o) hstep ?_
      refine (Ready.polled (o := o) ⟨h.inv.step hstep, fun o' => ?_, fun o' => ?_⟩ ?_).mono
        fun t ht => ⟨ht.1, ht.2.1, fun o' ho' => ht.2.2 o' ?_⟩
      · exact boards_turn (P := fun b => b.rm.isUp = true) id (h.up o')
      · exact boards_turn (P := fun b => b.restarting = false) id (h.awake o')
      · simp [ho]
      · exact boards_turn (P := fun b => b.phase = .done)
          (fun hdone => by rw [hphase] at hdone; cases hdone) ho'
  | announcing =>
      by_cases ho : o = .center
      · subst ho
        have hdone := ((h.inv.boards .center).center rfl).2 (h.up .center)
        rw [hdone] at hphase
        cases hphase
      · exact absurd hphase ((h.inv.boards o).sides ho)
  | polling => exact h.polled hphase
  | done => exact .here ⟨h, hphase, fun _ ho' => ho'⟩

/-- The center board has announced the node, and its message is on its way to every board that
is not up. -/
structure Announced (node : NodeBoards) (s : Setup) : Prop where
  inv : Inv node s
  awake : s.Awake
  center : (s.boards .center).rm.isUp = true
  message : ∀ o, (s.boards o).rm.isUp = false → ⟨o, node.startupPacket⟩ ∈ s.packets

/-- The boards that wait for the message get it. -/
theorem Announced.finishes (h : Announced node s) :
    (setupMachine node).CanReach Calm s AllUp := by
  have hall : (setupMachine node).CanReach Calm s fun t => Announced node t ∧
      ∀ o, (t.boards o).rm.isUp = true := by
    refine (Machine.CanReach.sweep (Announced node) (fun o t => (t.boards o).rm.isUp = true)
      (fun s o h => ?_) Orientation.all h).mono fun t ht => ⟨ht.1, fun o => ht.2.1 o (by simp)⟩
    cases hup : (s.boards o).rm.isUp with
    | true => exact .here ⟨h, hup, fun _ ho' => ho'⟩
    | false =>
        have hmem := h.message o hup
        have hstep := step_deliver node hmem (h.awake o) (s.boards o).rm.lastResetTime
        have hknown := rmOnSiblingMessage_startup node (s.boards o).rm
          (s.boards o).rm.lastResetTime
        have hself : ((s.deliver ⟨o, node.startupPacket⟩
            (s.boards o).rm.lastResetTime).boards o).rm.isUp = true := by
          simp [Setup.deliver, hknown]
        have hother : ∀ o', (s.boards o').rm.isUp = true →
            ((s.deliver ⟨o, node.startupPacket⟩
              (s.boards o).rm.lastResetTime).boards o').rm.isUp = true := by
          intro o' ho'
          refine boards_turn (P := fun b => b.rm.isUp = true) (fun _ => ?_) ho'
          rw [hknown]
        refine .step (l := .deliver ⟨o, node.startupPacket⟩ _) (s.clockRuns_self o) hstep
          (.here ⟨⟨h.inv.step hstep, fun o' => ?_, hother _ h.center, fun o' ho' => ?_⟩, hself,
            hother⟩)
        · refine boards_turn (P := fun b => b.restarting = false) (fun _ => ?_) (h.awake o')
          rw [hknown]
        · have hne : o' ≠ o := by
            rintro rfl
            rw [hself] at ho'
            cases ho'
          refine (List.mem_erase_of_ne fun heq => hne (RmPacket.mk.inj heq).1).mpr
            (h.message o' ?_)
          simpa [Setup.deliver, hne] using ho'
  exact hall.bind fun t ht => Ready.finishes ⟨ht.1.inv, ht.2, ht.1.awake⟩

theorem Inv.announces (inv : Inv node s) (hawake : s.Awake)
    (hphase : (s.boards .center).phase = .announcing) :
    (setupMachine node).CanReach Calm s AllUp := by
  have hstep := step_turn
    (turn_announcing node (s.boards .center).rm.lastResetTime true hphase)
  refine .step (l := .turn .center _ true) (s.clockRuns_self .center) hstep
    (Announced.finishes ⟨inv.step hstep, fun o => ?_, by simp, fun o ho => ?_⟩)
  · exact boards_turn (P := fun b => b.restarting = false) id (hawake o)
  · refine List.mem_append_right _ (mem_copies.mpr ⟨by simp, ?_⟩)
    rintro rfl
    simp at ho

theorem Inv.starts (inv : Inv node s) (hawake : s.Awake)
    (hdown : (s.boards .center).rm.isUp = false) :
    (setupMachine node).CanReach Calm s AllUp := by
  cases hphase : (s.boards .center).phase with
  | resetting =>
      have hstep := step_turn
        (turn_resetting node .center (s.boards .center).rm.lastResetTime true hphase)
      refine .step (l := .turn .center _ true) (s.clockRuns_self .center) hstep
        (Inv.announces (inv.step hstep) (fun o => ?_) (by simp))
      exact boards_turn (P := fun b => b.restarting = false) id (hawake o)
  | announcing => exact inv.announces hawake hphase
  | polling => exact absurd hphase ((inv.boards .center).center rfl).1
  | done =>
      rw [((inv.boards .center).done hphase).1] at hdown
      cases hdown

/-- A center board that is up restarts for a reset on its way to it. -/
theorem Inv.restarts (inv : Inv node s) (hawake : s.Awake)
    (hcenter : (s.boards .center).rm.isUp = true)
    (hmem : ⟨.center, [rmOpcodeReset]⟩ ∈ s.packets) :
    (setupMachine node).CanReach Calm s AllUp := by
  have hstep := step_deliver node hmem (hawake .center)
    (s.boards .center).rm.lastResetTime
  have hreset : rmOnSiblingMessage (s.boards .center).rm
      (s.boards .center).rm.lastResetTime [rmOpcodeReset] = ((s.boards .center).rm, true) := by
    rw [rmOnSiblingMessage_reset, if_pos hcenter]
  have hwaits : ((s.deliver ⟨.center, [rmOpcodeReset]⟩
      (s.boards .center).rm.lastResetTime).boards .center).restarting = true := by
    simp [Setup.deliver, hreset]
  have hrestart := step_restart node hwaits 0
  refine .step (l := .deliver ⟨.center, [rmOpcodeReset]⟩ _) (s.clockRuns_self .center) hstep
    (.step (l := .restart .center 0) trivial hrestart
      (Inv.starts ((inv.step hstep).step hrestart) (fun o => ?_) (by simp [nodeSetup, rmInit])))
  by_cases ho : o = .center
  · simp [ho, nodeSetup]
  · simpa [Setup.deliver, ho] using hawake o

theorem Inv.resets (inv : Inv node s) (hawake : s.Awake)
    (hcenter : (s.boards .center).rm.isUp = true) {o : Orientation} (ho : o ≠ .center)
    (hphase : (s.boards o).phase = .resetting) :
    (setupMachine node).CanReach Calm s AllUp := by
  have hstep := step_turn
    (turn_resetting node o (s.boards o).rm.lastResetTime true hphase)
  refine .step (l := .turn o _ true) (s.clockRuns_self o) hstep
    (Inv.restarts (inv.step hstep) (fun o' => ?_) ?_ ?_)
  · exact boards_turn (P := fun b => b.restarting = false) id (hawake o')
  · exact boards_turn (P := fun b => b.rm.isUp = true) id hcenter
  · exact List.mem_append_right _ (mem_copies.mpr ⟨by simp, Ne.symm ho⟩)

theorem elapsed (time passed : Int64) : time + passed - time = passed := by
  rw [Int64.add_comm, Int64.add_sub_cancel]

theorem clockRuns_later (s : Setup) (o : Orientation) :
    s.ClockRuns o ((s.boards o).rm.lastResetTime + 30000001) := by
  rw [ClockRuns, elapsed]
  decide

theorem should_reset (rm : ResetManager) :
    rmShouldDeviceReset rm (rm.lastResetTime + 30000001) = true := by
  rw [rmShouldDeviceReset, elapsed]
  decide

/-- From every state the boards come up by their own means. -/
theorem Inv.recovers (inv : Inv node s) : (setupMachine node).CanReach Calm s AllUp := by
  refine inv.wakes.bind fun s h => ?_
  obtain ⟨inv, hawake⟩ := h
  cases hcenter : (s.boards .center).rm.isUp with
  | false => exact inv.starts hawake hcenter
  | true =>
      by_cases hall : ∀ o, (s.boards o).rm.isUp = true
      · exact Ready.finishes ⟨inv, hall, hawake⟩
      · obtain ⟨o, hup⟩ := not_forall.mp hall
        have hdown : (s.boards o).rm.isUp = false := by simpa using hup
        have ho : o ≠ .center := by
          rintro rfl
          exact hup hcenter
        cases hphase : (s.boards o).phase with
        | resetting => exact inv.resets hawake hcenter ho hphase
        | announcing => exact absurd hphase ((inv.boards o).sides ho)
        | polling =>
            have hstep := step_turn ((turn_down node o
              ((s.boards o).rm.lastResetTime + 30000001) true hphase hdown).trans
                (if_pos (should_reset _)))
            refine .step (l := .turn o _ true) (clockRuns_later s o) hstep
              (Inv.resets (inv.step hstep) (fun o' => ?_) ?_ ho (by simp))
            · exact boards_turn (P := fun b => b.restarting = false) id (hawake o')
            · exact boards_turn (P := fun b => b.rm.isUp = true) id hcenter
        | done =>
            rw [((inv.boards o).done hphase).1] at hdown
            cases hdown

end Setup

/-- In every reachable state, whatever was lost and whichever boards restarted: a board that is up
has the UUID and the kind of the center board's configuration, only boards that are up restart for
a message, and once all five have left `node_setup`, `app_main` makes them the node that the runs
of the routing module start with. -/
theorem nodeStartup_agrees (node : NodeBoards) (now : Orientation → Int64) {s : Setup}
    (run : (setupMachine node).Reaches (Setup.start now) s) :
    (∀ o, (s.boards o).rm.isUp = true →
      (s.boards o).rm.uuid.toList = node.uuid.bytes ++ [0] ∧
        (s.boards o).rm.isRoot = node.isRoot) ∧
      (∀ o, (s.boards o).restarting = true → (s.boards o).rm.isUp = true) ∧
      (∀ o, (s.boards o).phase = .done →
        (s.boards o).rm.isUp = true ∧ (s.boards o).isCenterRoot = node.isRoot) ∧
      ((∀ o, (s.boards o).phase = .done) → s.appMain =
        if node.isRoot then HookedNode.startRoot rootNetwork else HookedNode.startHome) :=
  have inv := Setup.Inv.run run
  ⟨fun o => (inv.boards o).known, fun o => (inv.boards o).restarting,
    fun o => (inv.boards o).done, inv.appMain_eq⟩

/-- The pins of the root's boards. -/
def rootPins : Orientation → BitVec 3
  | .north => 0
  | .south => 1
  | .east => 2
  | .west => 3
  | .center => 5

theorem rootPins_wired (o : Orientation) : nodeGetConfigOrientation (rootPins o) = o := by
  cases o <;> rfl

/-- The root's node, whose boards have the MAC addresses ac:de:48:00:11:0x. -/
def rootNodeBoards : NodeBoards where
  configBits := rootPins
  mac := fun o => #v[0xac, 0xde, 0x48, 0x00, 0x11, o.output]
  wired := rootPins_wired

/-- The west board starts late and misses the message, asks for a reset after half a minute, and
the second round reaches all boards. -/
def lateStart : List SetupLabel :=
  let startup := rootNodeBoards.startupPacket
  [.turn .center 0 true, .turn .center 10000000 true,
    .deliver ⟨.north, startup⟩ 10000000, .deliver ⟨.south, startup⟩ 10000000,
    .deliver ⟨.east, startup⟩ 10000000, .lose ⟨.west, startup⟩,
    .turn .north 10000000 true, .turn .south 10000000 true,
    .turn .west 30000001 true, .turn .west 30000001 true,
    .deliver ⟨.center, [rmOpcodeReset]⟩ 30000001, .restart .center 0,
    .turn .center 0 true, .turn .center 10000000 true, .deliver ⟨.west, startup⟩ 40000000,
    .turn .west 40000000 true, .turn .east 40000000 true]

theorem lateStart_runs :
    ((setupMachine rootNodeBoards).run (Setup.start fun _ => 0) lateStart).isSome = true := by
  decide

theorem nodeStartup_agrees_late :
    let s := ((setupMachine rootNodeBoards).run (Setup.start fun _ => 0) lateStart).get
      lateStart_runs
    (∀ o, (s.boards o).rm.isUp = true →
      (s.boards o).rm.uuid.toList = rootNodeBoards.uuid.bytes ++ [0] ∧
        (s.boards o).rm.isRoot = rootNodeBoards.isRoot) ∧
      (∀ o, (s.boards o).restarting = true → (s.boards o).rm.isUp = true) ∧
      (∀ o, (s.boards o).phase = .done →
        (s.boards o).rm.isUp = true ∧ (s.boards o).isCenterRoot = rootNodeBoards.isRoot) ∧
      ((∀ o, (s.boards o).phase = .done) → s.appMain =
        if rootNodeBoards.isRoot then HookedNode.startRoot rootNetwork
        else HookedNode.startHome) :=
  nodeStartup_agrees rootNodeBoards (fun _ => 0)
    (Machine.reaches_of_run (Option.some_get lateStart_runs).symm)

example :
    let s := ((setupMachine rootNodeBoards).run (Setup.start fun _ => 0) lateStart).get
      lateStart_runs
    Orientation.all.all (fun o => (s.boards o).phase = .done) = true ∧
      rootNodeBoards.isRoot = true := by decide

/-- And from every reachable state all five boards can come up by their own turns and restarts,
once neither the ring nor a board fails any more. -/
theorem nodeStartup_recovers (node : NodeBoards) (now : Orientation → Int64) {s : Setup}
    (run : (setupMachine node).Reaches (Setup.start now) s) :
    (setupMachine node).CanReach Setup.Calm s Setup.AllUp :=
  (Setup.Inv.run run).recovers

theorem lateStart_prefix_runs :
    ((setupMachine rootNodeBoards).run (Setup.start fun _ => 0) (lateStart.take 10)).isSome =
      true := by
  decide

theorem nodeStartup_recovers_late :
    (setupMachine rootNodeBoards).CanReach Setup.Calm
      (((setupMachine rootNodeBoards).run (Setup.start fun _ => 0) (lateStart.take 10)).get
        lateStart_prefix_runs)
      Setup.AllUp :=
  nodeStartup_recovers rootNodeBoards (fun _ => 0)
    (Machine.reaches_of_run (Option.some_get lateStart_prefix_runs).symm)

end I4A
