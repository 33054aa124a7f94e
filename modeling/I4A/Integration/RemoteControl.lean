import I4A.Core.CString
import I4A.Core.Machine

/-! # Remote control of a house access point

`remote_control.c` with the lock of the access point in `device.c` and `ap_event_handler`. A client
connects, its bytes come as TCP cuts them, and the server reads once. A station that joins a locked
access point is sent away when its event is handled. The board may restart at any time, by a command
or by the `RM_OPCODE_RESET` of a sibling. What `esp_wifi_deauth_sta` does to the stations is a
parameter.
-/

namespace I4A

namespace RemoteControl

/-- `BUFFER_SIZE`, `PASSWORD_LEN` and `AUTH_PASSWORD`. -/
def bufferSize : Nat := 512
def passwordLen : Nat := 9
def authPassword : List UInt8 := ascii ['I', '4', 'A', '1', '2', '3', '4', '5', '6']

/-- `remote_commands_t`. -/
inductive RemoteCommand where
  | apEnable | apDisable | resetNode | echo
  deriving DecidableEq

/-- In the order of the values. -/
def RemoteCommand.all : List RemoteCommand := [.apEnable, .apDisable, .resetNode, .echo]

def commandTable : RemoteCommand → List UInt8
  | .apEnable => ascii ['a', 'p', '_', 'e', 'n', 'a', 'b', 'l', 'e']
  | .apDisable => ascii ['a', 'p', '_', 'd', 'i', 's', 'a', 'b', 'l', 'e']
  | .resetNode => ascii ['r', 'e', 's', 'e', 't', '_', 'n', 'o', 'd', 'e']
  | .echo => ascii ['e', 'c', 'h', 'o']

/-- `determine_command` of the text in the buffer. -/
def determineCommand (buffer : List UInt8) : Option RemoteCommand :=
  let input := cString buffer
  if input.length < passwordLen + 2 then none
  else if input[passwordLen]? ≠ some 0x3a then none
  else if input.take passwordLen ≠ authPassword then none
  else RemoteCommand.all.find? fun command => input.drop (passwordLen + 1) = commandTable command

/-- The message of `remote_control.py`. -/
def message (password command : List UInt8) : List UInt8 := password ++ 0x3a :: command

/-- `rx_buffer` after `recv` of these bytes. -/
def rxBuffer (received : List UInt8) : List UInt8 := received ++ [0]

/-! ## The board -/

abbrev Mac := Vector UInt8 6

/-- An entry of the board's history. -/
inductive HouseEntry where
  /-- The server has read these bytes. -/
  | read (received : List UInt8)
  /-- `esp_restart` of another component. -/
  | restart

structure HouseBoard where
  apLock : Bool
  /-- The stations that are associated. -/
  stations : List Mac
  /-- `WIFI_EVENT_AP_STACONNECTED` that are not handled. -/
  joined : List Mac
  history : List HouseEntry

inductive HouseLabel where
  /-- `recv` of these bytes, up to `apply_command`. -/
  | recv (received : List UInt8)
  /-- `rm_on_sibling_message` of `RM_OPCODE_RESET`, or the power. -/
  | restart
  | staJoins (mac : Mac)
  | staLeaves (mac : Mac)
  /-- `ap_event_handler` of `WIFI_EVENT_AP_STACONNECTED`. -/
  | staConnected

/-- `esp_wifi_deauth_sta`: the stations that stay. -/
abbrev DeauthSta := UInt16 → List Mac → List Mac

/-- With 0 it sends every station away. -/
def DeauthSta.All (espWifiDeauthSta : DeauthSta) : Prop :=
  ∀ stations, espWifiDeauthSta 0 stations = []

namespace HouseBoard

variable (espWifiDeauthSta : DeauthSta) (b : HouseBoard)

/-- After `remote_command_server_create`. -/
def start : HouseBoard := ⟨false, [], [], []⟩

/-- `ap_disconnect_all_stations` of an active access point. -/
def apDisconnectAllStations : HouseBoard := { b with stations := espWifiDeauthSta 0 b.stations }

/-- `apply_command`; a reset ends in the state after the next start. -/
def applyCommand : RemoteCommand → HouseBoard
  | .apDisable => { b with apLock := true }.apDisconnectAllStations espWifiDeauthSta
  | .apEnable => { b with apLock := false }
  | .resetNode => { start with history := b.history }
  | .echo => b

def step : HouseLabel → Option HouseBoard
  | .recv received =>
      if received.length ≤ bufferSize - 1 then
        let b' := { b with history := b.history ++ [.read received] }
        match determineCommand (rxBuffer received) with
        | some command => some (b'.applyCommand espWifiDeauthSta command)
        | none => some b'
      else none
  | .restart => some { start with history := b.history ++ [.restart] }
  | .staJoins mac =>
      some { b with stations := b.stations.insert mac, joined := b.joined ++ [mac] }
  | .staLeaves mac => some { b with stations := b.stations.filter (· ≠ mac) }
  | .staConnected =>
      match b.joined with
      | [] => none
      | _ :: joined =>
          let b' := { b with joined }
          some (if b.apLock then b'.apDisconnectAllStations espWifiDeauthSta else b')

end HouseBoard

/-- The bytes are the password and the command, up to their first zero. -/
def Says (command : RemoteCommand) (received : List UInt8) : Prop :=
  cString (rxBuffer received) = message authPassword (commandTable command)

theorem determineCommand_eq_some_iff {buffer : List UInt8} {command : RemoteCommand} :
    determineCommand buffer = some command ↔
      cString buffer = message authPassword (commandTable command) := by
  constructor
  · intro h
    unfold determineCommand at h
    dsimp only at h
    split at h
    · cases h
    split at h
    · cases h
    split at h
    · cases h
    next hlength hcolon hpassword =>
      have hcommand : (cString buffer).drop (passwordLen + 1) = commandTable command := by
        simpa using List.find?_some h
      have hlt : passwordLen < (cString buffer).length := by omega
      have hsep : (cString buffer)[passwordLen] = 0x3a := by
        rw [not_not, List.getElem?_eq_getElem hlt] at hcolon
        exact Option.some.inj hcolon
      calc cString buffer
          = (cString buffer).take passwordLen ++ (cString buffer).drop passwordLen :=
            (List.take_append_drop passwordLen _).symm
        _ = authPassword ++ 0x3a :: commandTable command := by
            rw [List.drop_eq_getElem_cons hlt, hsep, hcommand, not_not.mp hpassword]
  · intro h
    unfold determineCommand
    rw [h]
    cases command <;> rfl

/-- Of the entries with one of two properties, the last has the first. -/
def LastIs {α : Type*} (on off : α → Prop) (l : List α) : Prop :=
  ∃ before a after, l = before ++ a :: after ∧ on a ∧ ∀ x ∈ after, ¬ off x

theorem not_lastIs_nil {α : Type*} (on off : α → Prop) : ¬ LastIs on off [] := by
  rintro ⟨before, a, after, hnil, -⟩
  exact List.append_ne_nil_of_right_ne_nil before (List.cons_ne_nil a after) hnil.symm

theorem lastIs_concat {α : Type*} {on off : α → Prop} {l : List α} {a : α} :
    LastIs on off (l ++ [a]) ↔ on a ∨ LastIs on off l ∧ ¬ off a := by
  constructor
  · rintro ⟨before, x, after, heq, hon, hoff⟩
    rcases List.eq_nil_or_concat after with rfl | ⟨after', y, rfl⟩
    · obtain ⟨-, hlast⟩ := List.append_inj' heq rfl
      exact .inl ((List.cons.inj hlast).1 ▸ hon)
    · rw [List.concat_eq_append, ← List.cons_append, ← List.append_assoc] at heq
      obtain ⟨hfront, hlast⟩ := List.append_inj' heq rfl
      obtain rfl := (List.cons.inj hlast).1
      refine .inr ⟨⟨before, x, after', hfront, hon, fun z hz => hoff z ?_⟩, hoff a ?_⟩
      · rw [List.concat_eq_append]
        exact List.mem_append_left [a] hz
      · rw [List.concat_eq_append]
        exact List.mem_append_right after' (List.mem_singleton.mpr rfl)
  · rintro (hon | ⟨⟨before, x, after, rfl, hon, hoff⟩, ha⟩)
    · exact ⟨l, a, [], rfl, hon, fun x hx => absurd hx List.not_mem_nil⟩
    · refine ⟨before, x, after ++ [a], by simp, hon, fun z hz => ?_⟩
      rcases List.mem_append.mp hz with hz | hz
      · exact hoff z hz
      · rwa [List.mem_singleton.mp hz]

/-- What locks the access point. -/
def Locks : HouseEntry → Prop
  | .read received => Says .apDisable received
  | .restart => False

/-- What unlocks it. -/
def Unlocks : HouseEntry → Prop
  | .read received => Says .apEnable received ∨ Says .resetNode received
  | .restart => True

namespace HouseBoard

variable {b b' : HouseBoard} {espWifiDeauthSta : DeauthSta}

/-- What holds of the board. -/
structure Inv (b : HouseBoard) : Prop where
  lock : b.apLock = true ↔ LastIs Locks Unlocks b.history
  emptied : b.apLock = true → ∀ mac ∈ b.stations, mac ∈ b.joined

theorem Inv.start : start.Inv where
  lock := iff_of_false nofun (not_lastIs_nil _ _)
  emptied h := by cases h

/-- The board after the server has read. -/
theorem Inv.recv (h : b.Inv) (all : espWifiDeauthSta.All) (received : List UInt8)
    {said : Option RemoteCommand} (hsaid : determineCommand (rxBuffer received) = said) :
    (said.elim { b with history := b.history ++ [.read received] }
      (({ b with history := b.history ++ [.read received] } : HouseBoard).applyCommand
        espWifiDeauthSta)).Inv := by
  have hsays : ∀ command, Says command received ↔ said = some command := by
    intro command
    rw [← hsaid]
    exact determineCommand_eq_some_iff.symm
  have hnext : ∀ {lock' : Bool}, (lock' = true ↔ said = some .apDisable ∨
      b.apLock = true ∧ ¬ (said = some .apEnable ∨ said = some .resetNode)) →
      (lock' = true ↔ LastIs Locks Unlocks (b.history ++ [.read received])) := by
    intro lock' hlock
    rw [lastIs_concat, ← h.lock, Locks, Unlocks, hsays, hsays, hsays]
    exact hlock
  cases said with
  | none => exact ⟨hnext (by simp), h.emptied⟩
  | some command =>
      cases command with
      | apEnable => exact ⟨hnext (by simp [applyCommand]), nofun⟩
      | apDisable =>
          refine ⟨hnext (by simp [applyCommand, apDisconnectAllStations]), fun _ mac hmac => ?_⟩
          change mac ∈ espWifiDeauthSta 0 b.stations at hmac
          rw [all] at hmac
          cases hmac
      | resetNode => exact ⟨hnext (by simp [applyCommand, HouseBoard.start]), nofun⟩
      | echo => exact ⟨hnext (by simp [applyCommand]), h.emptied⟩

theorem Inv.step {l : HouseLabel} (h : b.Inv) (all : espWifiDeauthSta.All)
    (hs : b.step espWifiDeauthSta l = some b') : b'.Inv := by
  cases l with
  | recv received =>
      have hrecv := h.recv all received rfl
      simp only [HouseBoard.step] at hs
      split at hs
      next =>
        cases hsaid : determineCommand (rxBuffer received) with
        | none =>
            rw [hsaid] at hs hrecv
            cases hs
            exact hrecv
        | some command =>
            rw [hsaid] at hs hrecv
            cases hs
            exact hrecv
      next => cases hs
  | restart =>
      cases hs
      refine ⟨iff_of_false nofun ?_, nofun⟩
      rw [lastIs_concat]
      rintro (hlocks | ⟨-, hkept⟩)
      · exact hlocks
      · exact hkept trivial
  | staJoins mac =>
      cases hs
      refine ⟨h.lock, fun hlock other hother => ?_⟩
      rcases List.mem_insert_iff.mp hother with rfl | hother
      · exact List.mem_append_right _ (List.mem_singleton.mpr rfl)
      · exact List.mem_append_left _ (h.emptied hlock other hother)
  | staLeaves mac =>
      cases hs
      refine ⟨h.lock, fun hlock other hother => ?_⟩
      exact h.emptied hlock other (List.mem_of_mem_filter hother)
  | staConnected =>
      simp only [HouseBoard.step] at hs
      split at hs
      next => cases hs
      next =>
        cases hs
        split
        next =>
          refine ⟨h.lock, fun _ mac hmac => ?_⟩
          change mac ∈ espWifiDeauthSta 0 b.stations at hmac
          rw [all] at hmac
          cases hmac
        next hfree => exact ⟨h.lock, fun hlock => absurd hlock hfree⟩

end HouseBoard

/-- Behind the right password and a separator the rest is a command of its own. -/
example : determineCommand (rxBuffer
    ((message (authPassword ++ 0x3a :: commandTable .apDisable) (commandTable .echo)).take 20)) =
      some .apDisable := rfl

end RemoteControl

end I4A
