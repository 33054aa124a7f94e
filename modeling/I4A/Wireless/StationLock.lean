import I4A.Core.Sweep
import I4A.Wireless.Station

/-! # The lock of the station

The packet of a sibling that has found a network locks the station. `device_disable_station` sets
`sta_lock` and leaves the handler without a try; a scan that has begun is not called back, and an
address that comes to a connected station opens the client and gives the handler its tries again.
-/

namespace I4A

open ChannelManager Checked

/-- Every label but `device_enable_station`. -/
def StationDeviceLabel.keepsLock : StationDeviceLabel → Bool
  | .enableStation => false
  | _ => true

namespace StationDevice

variable {t u : StationDevice} {eventLoop : EventLoop} {base : List StationCall}

/-- A locked station since the calls of `base`: every opening of the client has paid for
`MAX_RETRIES` calls of `esp_wifi_connect`, and for the tries that are left. -/
structure LockedOut (base : List StationCall) (t : StationDevice) : Prop where
  lock : t.staLock = true
  task : t.task = .testing
  since : base <:+ t.log
  spent : wifiConnects t.log + stationMaxRetries * clientOpens base ≤
    wifiConnects base + stationMaxRetries * clientOpens t.log
  left : t.station.state = .active →
    wifiConnects t.log + (stationMaxRetries - t.retryNum) + stationMaxRetries * clientOpens base ≤
      wifiConnects base + stationMaxRetries * clientOpens t.log

theorem LockedOut.start (htask : t.task = .testing) :
    t.deviceDisableStation.LockedOut t.deviceDisableStation.log := by
  obtain ⟨hstation, -, htask', hlock⟩ := deviceDisableStation_frame t
  refine ⟨hlock, htask'.trans htask, List.suffix_refl _, Nat.le_refl _, fun hactive => ?_⟩
  rw [hstation] at hactive
  rw [deviceDisableStation_active hactive, Nat.sub_self, Nat.add_zero]

theorem LockedOut.of_counts (h : t.LockedOut base) (hlock : u.staLock = t.staLock)
    (htask : u.task = t.task) (hstate : u.station.state = t.station.state)
    (hretries : t.retryNum ≤ u.retryNum) (hsince : t.log <:+ u.log)
    (hcounts : SameCounts u.log t.log) : u.LockedOut base where
  lock := hlock.trans h.lock
  task := htask.trans h.task
  since := h.since.trans hsince
  spent := by
    rw [hcounts.connects, hcounts.opens]
    exact h.spent
  left hactive := by
    have hleft := h.left (hstate ▸ hactive)
    rw [hcounts.connects, hcounts.opens]
    omega

theorem LockedOut.deviceDisableStation (h : t.LockedOut base) (hinv : t.Inv) :
    t.deviceDisableStation.LockedOut base := by
  obtain ⟨hstation, -, htask, hlock⟩ := deviceDisableStation_frame t
  obtain ⟨hretries, hsince, hcounts⟩ := deviceDisableStation_counts hinv
  exact h.of_counts (hlock.trans h.lock.symm) htask (congrArg _ hstation) hretries hsince hcounts

/-! ### The handler behind the lock -/

/-- Another try is paid for, and without one the station gives up. -/
theorem LockedOut.leaves (h : t.LockedOut base) (hactive : t.station.state = .active) :
    t.leaveAccessPoint.retryOrStop.LockedOut base := by
  obtain ⟨hstate, hnum, hlock, htask, hlog⟩ := leaveAccessPoint_frame t
  have hsince : t.log <:+ t.leaveAccessPoint.log := by
    rcases hlog with hlog | hlog
    · rw [hlog]
    · rw [hlog]
      exact List.suffix_cons _ _
  have hleft : t.leaveAccessPoint.LockedOut base :=
    h.of_counts hlock htask hstate hnum.ge hsince (leaveAccessPoint_counts t)
  have hspare := hleft.left (hstate.trans hactive)
  by_cases hretry : t.leaveAccessPoint.retryNum < stationMaxRetries
  · rw [retryOrStop_retries hretry]
    have hpaid : wifiConnects t.leaveAccessPoint.log + 1 +
        (stationMaxRetries - (t.leaveAccessPoint.retryNum + 1)) +
          stationMaxRetries * clientOpens base ≤
        wifiConnects base + stationMaxRetries * clientOpens t.leaveAccessPoint.log := by
      omega
    have hconnect : wifiConnects (.espWifiConnect :: t.leaveAccessPoint.log) =
        wifiConnects t.leaveAccessPoint.log + 1 := wifiConnects_cons _ _
    have hopens : clientOpens (.espWifiConnect :: t.leaveAccessPoint.log) =
        clientOpens t.leaveAccessPoint.log := clientOpens_cons _ _
    exact {
      lock := hleft.lock
      task := hleft.task
      since := hleft.since.trans (List.suffix_cons _ _)
      spent := by
        change wifiConnects (_ :: t.leaveAccessPoint.log) + _ ≤
          _ + stationMaxRetries * clientOpens (_ :: t.leaveAccessPoint.log)
        rw [hconnect, hopens]
        omega
      left := fun _ => by
        change wifiConnects (_ :: t.leaveAccessPoint.log) +
          (stationMaxRetries - (t.leaveAccessPoint.retryNum + 1)) + _ ≤
            _ + stationMaxRetries * clientOpens (_ :: t.leaveAccessPoint.log)
        rw [hconnect, hopens]
        exact hpaid }
  · obtain ⟨hinactive, hlock', htask', hlog'⟩ := retryOrStop_stops hretry
    exact {
      lock := hlock'.trans hleft.lock
      task := htask'.trans hleft.task
      since := by
        rw [hlog']
        exact hleft.since
      spent := by
        rw [hlog']
        exact hleft.spent
      left := fun hc => by
        rw [hinactive] at hc
        cases hc }

/-- An address opens the client of a connected station. -/
theorem LockedOut.onGotIp (h : t.LockedOut base) (ip netmask : BitVec 32) :
    (t.onGotIp ip netmask).LockedOut base := by
  unfold StationDevice.onGotIp
  split
  next =>
    obtain ⟨hstation, hretries, hlock, htask⟩ := imHttpClientStart_frame t
    have hsince : t.log <:+ t.provideToSiblings.imHttpClientStart.log := by
      have hprovided : t.log <:+ t.provideToSiblings.log := List.suffix_cons _ _
      rcases imHttpClientStart_eq t.provideToSiblings with heq | heq
      · rw [heq]
        exact hprovided
      · rw [heq]
        exact hprovided.trans (List.suffix_cons _ _)
    have hprovided : t.provideToSiblings.imHttpClientStart.LockedOut base :=
      h.of_counts hlock htask (congrArg _ hstation) hretries.ge hsince (imHttpClientStart_counts t)
    have hspent := hprovided.spent
    have hconnect : wifiConnects (.clientOpen :: t.provideToSiblings.imHttpClientStart.log) =
        wifiConnects t.provideToSiblings.imHttpClientStart.log := wifiConnects_cons _ _
    have hopens : clientOpens (.clientOpen :: t.provideToSiblings.imHttpClientStart.log) =
        clientOpens t.provideToSiblings.imHttpClientStart.log + 1 := clientOpens_cons _ _
    exact {
      lock := hprovided.lock
      task := hprovided.task
      since := hprovided.since.trans (List.suffix_cons _ _)
      spent := by
        change wifiConnects (_ :: t.provideToSiblings.imHttpClientStart.log) + _ ≤
          _ + stationMaxRetries * clientOpens (_ :: t.provideToSiblings.imHttpClientStart.log)
        rw [hconnect, hopens, Nat.mul_succ]
        omega
      left := fun _ => by
        change wifiConnects (_ :: t.provideToSiblings.imHttpClientStart.log) + stationMaxRetries +
          _ ≤ _ + stationMaxRetries * clientOpens (_ :: t.provideToSiblings.imHttpClientStart.log)
        rw [hconnect, hopens, Nat.mul_succ]
        omega }
  next =>
    exact h.of_counts rfl rfl rfl (Nat.le_refl _)
      ((List.suffix_cons _ _).trans (List.suffix_cons _ _))
      (((SameCounts.refl _).cons rfl rfl rfl rfl).cons rfl rfl rfl rfl)

theorem LockedOut.eventHandler (h : t.LockedOut base) (hinv : t.Inv) (hanswered : t.Answered)
    (answers : eventLoop.Answers) {e : WifiEvent} (he : eventLoop t.log e = true)
    (hs : t.eventHandler e = .ok u) : u.LockedOut base := by
  cases e with
  | staDisconnected tooMany =>
      have hactive := hanswered.active (answers t.log tooMany he)
      obtain ⟨cm, -, hhandled⟩ := hinv.eventHandler_disconnected tooMany
      rw [hhandled] at hs
      cases hs
      refine leaves ⟨h.lock, h.task, h.since.trans (List.suffix_cons _ _), ?_, fun hc => ?_⟩ hactive
      · change wifiConnects (_ :: t.log) + _ ≤ _ + stationMaxRetries * clientOpens (_ :: t.log)
        rw [wifiConnects_cons, clientOpens_cons]
        exact h.spent
      · have hleft := h.left hc
        change wifiConnects (_ :: t.log) +
          (stationMaxRetries - (if tooMany then stationMaxRetries else t.retryNum)) + _ ≤
            _ + stationMaxRetries * clientOpens (_ :: t.log)
        rw [wifiConnects_cons, clientOpens_cons]
        cases tooMany with
        | true => exact h.spent
        | false => exact hleft
  | staGotIp ip netmask =>
      cases hs
      have hcalled : (t.call (.eventHandler (.staGotIp ip netmask))).LockedOut base :=
        h.of_counts rfl rfl rfl (Nat.le_refl _) (List.suffix_cons _ _)
          ((SameCounts.refl _).cons rfl rfl rfl rfl)
      exact hcalled.onGotIp ip netmask
  | other eventId =>
      cases hs
      exact h.of_counts rfl rfl rfl (Nat.le_refl _) (List.suffix_cons _ _)
        ((SameCounts.refl _).cons rfl rfl rfl rfl)

/-- One step with the lock set. -/
theorem LockedOut.step {l : StationDeviceLabel} (h : t.LockedOut base) (hinv : t.Inv)
    (hanswered : t.Answered) (answers : eventLoop.Answers) (hl : l.keepsLock = true)
    (hs : t.step eventLoop l = some u) : u.LockedOut base := by
  cases l with
  | test =>
      simp only [StationDevice.step] at hs
      rw [if_pos h.task, if_pos (.inl h.lock)] at hs
      cases hs
      exact h
  | scanned scan =>
      simp only [StationDevice.step] at hs
      rw [if_neg (by rw [h.task]; decide)] at hs
      cases hs
  | connect =>
      simp only [StationDevice.step] at hs
      rw [if_neg (by rw [h.task]; decide)] at hs
      cases hs
  | event e =>
      obtain ⟨he, hhandled, -⟩ := hinv.of_event hs
      exact h.eventHandler hinv hanswered answers he hhandled
  | siblingMessage networkProvided msg =>
      obtain ⟨cm, disabled, hcm, rfl⟩ := siblingMessage_eq hs
      have hpacket : ({ t with cm } : StationDevice).LockedOut base := { h with }
      cases disabled with
      | false => exact hpacket
      | true => exact hpacket.deviceDisableStation (hinv.withPacket hcm)
  | enableStation => cases hl

theorem LockedOut.of_run
    (run : (stationDeviceMachine eventLoop).Executes (fun _ l => l.keepsLock = true) t u)
    (answers : eventLoop.Answers) (hinv : t.Inv) (hanswered : t.Answered)
    (h : t.LockedOut base) : u.LockedOut base := by
  have hall : u.Inv ∧ u.Answered ∧ u.LockedOut base := by
    induction run with
    | refl => exact ⟨hinv, hanswered, h⟩
    | tail _ hl hs ih =>
        obtain ⟨hinv, hanswered, h⟩ := ih
        exact ⟨hinv.step hs, hanswered.step hinv answers hs,
          h.step hinv hanswered answers hl hs⟩
  exact hall.2.2

/-- The calls since the lock. -/
theorem LockedOut.log_eq (h : t.LockedOut base) :
    ∃ since, t.log = since ++ base ∧
      wifiConnects since ≤ stationMaxRetries * clientOpens since := by
  obtain ⟨since, hlog⟩ := h.since
  have hspent := h.spent
  have hconnects : wifiConnects t.log = wifiConnects since + wifiConnects base := by
    rw [← hlog, wifiConnects, List.countP_append]
    rfl
  have hopens : clientOpens t.log = clientOpens since + clientOpens base := by
    rw [← hlog, clientOpens, List.countP_append]
    rfl
  rw [hconnects, hopens, Nat.mul_add] at hspent
  exact ⟨since, hlog.symm, by omega⟩

/-! ### The windows of the lock -/

/-- `esp_wifi_connect` is called although the lock is set, and before the client is opened. -/
def Breaks (eventLoop : EventLoop) (base : List StationCall) (t : StationDevice) : Prop :=
  (stationDeviceMachine eventLoop).CanReach (fun _ l => l.keepsLock = true) t fun v =>
    v.staLock = true ∧ ∃ since, v.log = .espWifiConnect :: since ++ base ∧ clientOpens since = 0

theorem Breaks.step {l : StationDeviceLabel} (h : u.Breaks eventLoop base)
    (hl : l.keepsLock = true) (hs : t.step eventLoop l = some u) : t.Breaks eventLoop base :=
  Machine.CanReach.step (M := stationDeviceMachine eventLoop) hl hs h

theorem breaks_of_connecting (hlock : t.staLock = true) (htask : t.task = .connecting)
    (hlog : t.log = base) : t.Breaks eventLoop base := by
  have hs : t.step eventLoop .connect = some { t.stationConnect with task := .testing } :=
    if_pos htask
  have hbroken : Breaks eventLoop base { t.stationConnect with task := .testing } := by
    refine .here ⟨hlock, [.espEventHandlerRegister .ipEvent, .espEventHandlerRegister .wifiEvent,
      .espWifiSetConfig t.station.wifiConfig, .espNetifDhcpcStart], ?_, rfl⟩
    rw [← hlog]
    rfl
  exact hbroken.step rfl hs

theorem breaks_of_scanning (hlock : t.staLock = true) (htask : t.task = .scanning)
    (hlog : t.log = base) {ap : WifiApRecord} (hap : t.station.allows t.cm ap = true) :
    t.Breaks eventLoop base := by
  have hbest : t.station.bestAp t.cm none [ap] = some ap := if_pos hap
  have hfound : (t.station.stationFindAp t.cm [ap]).apFound = true := by
    rw [Station.stationFindAp, hbest]
  let t' : StationDevice := { t with
    station := t.station.stationFindAp t.cm [ap]
    task := .connecting
    candidates := [ap].filter (t.station.allows t.cm) }
  have hs : t.step eventLoop (.scanned [ap]) = some t' := by
    simp only [StationDevice.step]
    rw [if_pos htask, if_pos hfound]
  have hbroken : t'.Breaks eventLoop base := breaks_of_connecting hlock rfl hlog
  exact hbroken.step rfl hs

theorem onGotIp_connected (h : t.station.isFullyConnected = true) (ip netmask : BitVec 32) :
    (t.onGotIp ip netmask).retryNum = 0 ∧ (t.onGotIp ip netmask).staLock = t.staLock ∧
      wifiConnects (t.onGotIp ip netmask).log = wifiConnects t.log := by
  unfold onGotIp
  rw [if_pos h]
  refine ⟨rfl, (imHttpClientStart_frame t).2.2.1, ?_⟩
  change wifiConnects (_ :: t.provideToSiblings.imHttpClientStart.log) = wifiConnects t.log
  rw [wifiConnects_cons, (imHttpClientStart_counts t).connects]
  rfl

/-- The next disconnection is then answered with another try. -/
theorem connects_of_gotIp {v : StationDevice} {ip netmask : BitVec 32} (hinv : t.Inv)
    (hconnected : t.station.isFullyConnected = true)
    (hgot : t.step eventLoop (.event (.staGotIp ip netmask)) = some u)
    (hlost : u.step eventLoop (.event (.staDisconnected false)) = some v) :
    v.staLock = t.staLock ∧ wifiConnects v.log = wifiConnects t.log + 1 := by
  obtain ⟨-, hhandled, hinv'⟩ := hinv.of_event hgot
  obtain ⟨-, hhandled', -⟩ := hinv'.of_event hlost
  cases hhandled
  cases hhandled'
  obtain ⟨hretries, hlock, hconnects⟩ :=
    onGotIp_connected (t := t.call (.eventHandler (.staGotIp ip netmask))) hconnected ip netmask
  generalize (t.call (.eventHandler (.staGotIp ip netmask))).onGotIp ip netmask = u at *
  obtain ⟨-, hnum, hlock', -, -⟩ :=
    leaveAccessPoint_frame (u.call (.eventHandler (.staDisconnected false)))
  have hretry : (u.call (.eventHandler (.staDisconnected false))).leaveAccessPoint.retryNum <
      stationMaxRetries := by
    rw [hnum]
    change u.retryNum < 10
    omega
  rw [retryOrStop_retries hretry]
  refine ⟨hlock'.trans hlock, ?_⟩
  have hcalled : wifiConnects (StationCall.eventHandler (.staGotIp ip netmask) :: t.log) =
      wifiConnects t.log := wifiConnects_cons _ _
  have hcalled' : wifiConnects (StationCall.eventHandler (.staDisconnected false) :: u.log) =
      wifiConnects u.log := wifiConnects_cons _ _
  change wifiConnects (.espWifiConnect :: (u.call _).leaveAccessPoint.log) = _
  rw [wifiConnects_cons, (leaveAccessPoint_counts _).connects]
  exact congrArg (· + 1) (hcalled'.trans (hconnects.trans hcalled))

end StationDevice

/-- When the packet that disables the station comes while its task tests the lock, then until the
station is enabled again the task stays there, and the handler calls `esp_wifi_connect` at most
`MAX_RETRIES` times for each opening of the client since the packet: never if no address comes to a
connected station any more. One such address and one disconnection are enough for a call. A task
that has found a network, or whose scan can find one, connects behind the lock. -/
theorem station_lockHolds (eventLoop : EventLoop) (answers : eventLoop.Answers)
    (orientation o : NodeOrientation) (ssidLike deviceUuid password : List UInt8)
    (isApsta : Bool) (t u : StationDevice) (msg : List UInt8)
    (run : (stationDeviceMachine eventLoop).Reaches
      (.start (stationInit ssidLike orientation deviceUuid password isApsta) (cmInit o)) t)
    (hlength : msg.length = sizeofCmMessage)
    (hs : (stationDeviceMachine eventLoop).step t (.siblingMessage false msg) = some u) :
    (t.task = .testing →
      ∀ v, (stationDeviceMachine eventLoop).Executes (fun _ l => l.keepsLock = true) u v →
        v.staLock = true ∧ v.task = .testing ∧
        (∃ since, v.log = since ++ u.log ∧
          wifiConnects since ≤ stationMaxRetries * clientOpens since) ∧
        (v.station.isFullyConnected = true → ∀ ip netmask w x,
          v.step eventLoop (.event (.staGotIp ip netmask)) = some w →
          w.step eventLoop (.event (.staDisconnected false)) = some x →
          x.staLock = true ∧ wifiConnects x.log = wifiConnects v.log + 1)) ∧
    (t.task = .connecting ∨ (t.task = .scanning ∧ ∃ ap, u.station.allows u.cm ap = true) →
      (stationDeviceMachine eventLoop).CanReach (fun _ l => l.keepsLock = true) u fun v =>
        v.staLock = true ∧
        ∃ since, v.log = .espWifiConnect :: since ++ u.log ∧ clientOpens since = 0) := by
  have start := StationDevice.Inv.start orientation o ssidLike deviceUuid password isApsta
  obtain ⟨h, hanswered⟩ := StationDevice.Answered.of_run run answers start
    (.start orientation o ssidLike deviceUuid password isApsta)
  change t.step eventLoop (.siblingMessage false msg) = some u at hs
  obtain ⟨cm, disabled, hcm, rfl⟩ := StationDevice.siblingMessage_eq hs
  rw [if_pos ((StationDevice.onSiblingMessage_spec hcm).2.mpr ⟨rfl, hlength⟩)]
  have hpacket := h.withPacket hcm
  have hanswered' : ({ t with cm } : StationDevice).Answered := { hanswered with }
  have hinv := hpacket.deviceDisableStation
  refine ⟨fun htesting v hrun => ?_, fun hwindow => ?_⟩
  · have hlocked := StationDevice.LockedOut.of_run hrun answers hinv
      (hanswered'.deviceDisableStation hpacket) (.start htesting)
    refine ⟨hlocked.lock, hlocked.task, hlocked.log_eq, fun hconnected _ _ _ _ hgot hlost => ?_⟩
    have hv : v.Inv := .of_run hrun.reaches hinv
    obtain ⟨hlock, hconnects⟩ := StationDevice.connects_of_gotIp hv hconnected hgot hlost
    exact ⟨hlock.trans hlocked.lock, hconnects⟩
  · obtain ⟨-, -, htask, hlock⟩ := StationDevice.deviceDisableStation_frame { t with cm }
    rcases hwindow with hconnecting | ⟨hscanning, ap, hap⟩
    · exact StationDevice.breaks_of_connecting hlock (htask.trans hconnecting) rfl
    · exact StationDevice.breaks_of_scanning hlock (htask.trans hscanning) rfl hap

/-- The board to the east has found a network. -/
def eastPacket : List UInt8 :=
  (cmProvideToSiblings (cmInit ⟨2, Nat.le.step (Nat.le.step Nat.le.refl)⟩) 7
    (recordOf (nodeNamePrefix ++ devOrientation[3] ++ .replicate 12 0x44))).2.encode

/-- The packet comes to the station that has joined, and to the one that is about to. -/
theorem station_lockHolds_neighbour :
    (∃ t u, (stationDeviceMachine answering).run northStation joinNeighbour = some t ∧
      (stationDeviceMachine answering).step t (.siblingMessage false eastPacket) = some u ∧
      ∀ v, (stationDeviceMachine answering).Executes (fun _ l => l.keepsLock = true) u v →
        v.staLock = true ∧ v.task = .testing ∧ ∃ since, v.log = since ++ u.log ∧
          wifiConnects since ≤ stationMaxRetries * clientOpens since) ∧
    ∃ t u, (stationDeviceMachine answering).run northStation (joinNeighbour.take 2) = some t ∧
      (stationDeviceMachine answering).step t (.siblingMessage false eastPacket) = some u ∧
      (stationDeviceMachine answering).CanReach (fun _ l => l.keepsLock = true) u fun v =>
        v.staLock = true ∧
        ∃ since, v.log = .espWifiConnect :: since ++ u.log ∧ clientOpens since = 0 := by
  have joined : ((stationDeviceMachine answering).run northStation joinNeighbour).any fun t =>
      decide (t.task = .testing) &&
        ((stationDeviceMachine answering).step t (.siblingMessage false eastPacket)).isSome := by
    decide +kernel
  have found : ((stationDeviceMachine answering).run northStation
      (joinNeighbour.take 2)).any fun t => decide (t.task = .connecting) &&
        ((stationDeviceMachine answering).step t (.siblingMessage false eastPacket)).isSome := by
    decide +kernel
  constructor
  · obtain ⟨t, ht, hboth⟩ := (Option.any_eq_true _ _).mp joined
    obtain ⟨htask, hlocks⟩ := Bool.and_eq_true_iff.mp hboth
    obtain ⟨u, hu⟩ := Option.isSome_iff_exists.mp hlocks
    obtain ⟨hlock, -⟩ := station_lockHolds answering answering_answers 0 0 nodeNamePrefix
      (.replicate 12 0x41) [] false t u eastPacket (Machine.reaches_of_run ht)
      (by decide +kernel) hu
    refine ⟨t, u, ht, hu, fun v hrun => ?_⟩
    obtain ⟨hv, htesting, hsince, -⟩ := hlock (of_decide_eq_true htask) v hrun
    exact ⟨hv, htesting, hsince⟩
  · obtain ⟨t, ht, hboth⟩ := (Option.any_eq_true _ _).mp found
    obtain ⟨htask, hlocks⟩ := Bool.and_eq_true_iff.mp hboth
    obtain ⟨u, hu⟩ := Option.isSome_iff_exists.mp hlocks
    obtain ⟨-, hwindow⟩ := station_lockHolds answering answering_answers 0 0 nodeNamePrefix
      (.replicate 12 0x41) [] false t u eastPacket (Machine.reaches_of_run ht)
      (by decide +kernel) hu
    exact ⟨t, u, ht, hu, hwindow (.inl (of_decide_eq_true htask))⟩

end I4A
