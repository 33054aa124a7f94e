import I4A.Core.Machine
import I4A.Integration.ChannelManager

/-! # The station of a board

`station.c` with `device_connect_station_task` of `device.c`: the task scans and connects, the event
handler tries again or gives up, and a packet of `channel_manager.c` locks the station. The WiFi
driver, `esp_netif` and the default event loop are outside: which events they bring after which
calls is a parameter. A run of the board ends where `node_set_as_ap` resets the device.
-/

namespace I4A

open ChannelManager Checked

/-- `RSSI_THRESHOLD` and the `MAX_RETRIES` of `station.c`. -/
def rssiThreshold : Int8 := -128
def stationMaxRetries : Nat := 10

/-- `Station_State`. -/
inductive StationState where
  | active | inactive
  deriving DecidableEq

/-- `wifi_ap_record_t`. -/
structure WifiApRecord where
  bssid : Vector UInt8 6
  ssid : NetworkName
  primary : UInt8
  rssi : Int8
  deriving DecidableEq

/-- `wifi_config.sta`. -/
structure WifiStaConfig where
  ssid : Vector UInt8 32
  bssid : Vector UInt8 6
  password : List UInt8
  bssidSet : Bool
  deriving DecidableEq

structure Station where
  deviceUuid : List UInt8
  deviceOrientation : NodeOrientation
  ssidLike : List UInt8
  password : List UInt8
  apFound : Bool
  isFullyConnected : Bool
  isApsta : Bool
  state : StationState
  wifiConfig : WifiStaConfig
  wifiApFound : WifiApRecord
  staSubnet : BitVec 32
  staMask : BitVec 32

/-- A station that nothing was written to. -/
def WifiApRecord.zero : WifiApRecord := ⟨.replicate 6 0, .replicate maxNetworkNameLength 0, 0, 0⟩

/-- `station_init`. -/
def stationInit (wifiSsidLike : List UInt8) (orientation : NodeOrientation)
    (deviceUuid password : List UInt8) (isApsta : Bool) : Station where
  deviceUuid := deviceUuid
  deviceOrientation := orientation
  ssidLike := wifiSsidLike
  password := password
  apFound := false
  isFullyConnected := false
  isApsta := isApsta
  state := .inactive
  wifiConfig := ⟨.replicate 32 0, .replicate 6 0, [], false⟩
  wifiApFound := .zero
  staSubnet := 0
  staMask := 0

namespace Station

variable (station : Station) (cm : ChannelManager.State)

/-- The two tests of the loops over the scan. -/
def allows (ap : WifiApRecord) : Bool :=
  if ap.rssi < rssiThreshold then false
  else isNetworkAllowed cm station.deviceUuid station.ssidLike ap.ssid station.deviceOrientation

/-- The loop of `station_find_ap`: `best_ap`, if `found`. -/
def bestAp : Option WifiApRecord → List WifiApRecord → Option WifiApRecord
  | best, [] => best
  | best, ap :: rest =>
      if station.allows cm ap then
        match best with
        | none => bestAp (some ap) rest
        | some b => bestAp (if b.rssi < ap.rssi then some ap else some b) rest
      else bestAp best rest

/-- `transform_wifi_ap_record_to_config`. -/
def wifiConfigOf (ap : WifiApRecord) : WifiStaConfig where
  ssid := Vector.ofFn fun i => ap.ssid.toList.getD i 0
  bssid := ap.bssid
  password := station.password
  bssidSet := true

/-- `station_find_ap`. -/
def stationFindAp (scan : List WifiApRecord) : Station :=
  match station.bestAp cm none scan with
  | some ap =>
      { station with
        wifiApFound := ap
        apFound := true
        wifiConfig := station.wifiConfigOf ap }
  | none => { station with apFound := false }

/-- The loop of `station_scan_best_rssi`. -/
def bestRssi : Int8 → List WifiApRecord → Int8
  | best, [] => best
  | best, ap :: rest =>
      if station.allows cm ap then bestRssi (if best < ap.rssi then ap.rssi else best) rest
      else bestRssi best rest

/-- `station_scan_best_rssi`. -/
def stationScanBestRssi (scan : List WifiApRecord) : Int8 := station.bestRssi cm (-128) scan

end Station

/-! ## The board -/

/-- An event for `event_handler`. -/
inductive WifiEvent where
  /-- `WIFI_EVENT_STA_DISCONNECTED`: whether its reason is `WIFI_REASON_ASSOC_TOOMANY`. -/
  | staDisconnected (tooMany : Bool)
  /-- `IP_EVENT_STA_GOT_IP`. -/
  | staGotIp (ip netmask : BitVec 32)
  /-- Another `WIFI_EVENT`. -/
  | other (eventId : Int)
  deriving DecidableEq

inductive EventBase where
  | wifiEvent | ipEvent
  deriving DecidableEq

/-- What the board calls, and the calls of its `event_handler`. -/
inductive StationCall where
  | espNetifDhcpcStart
  | espWifiSetConfig (wifiConfig : WifiStaConfig)
  | espEventHandlerRegister (eventBase : EventBase)
  | espWifiConnect
  | espWifiDisconnect
  | espNetifDhcpcStop
  | espNetifSetIpInfo (ip gw netmask : BitVec 32)
  | cmProvideToSiblings (msg : CmMessage)
  | imHttpClientStart
  | clientOpen
  | clientClose
  | eventHandler (e : WifiEvent)

/-- What ESP-IDF may call `event_handler` with after these calls, the newest of them first: the
driver, `esp_netif` and the default event loop between them. -/
abbrev EventLoop := List StationCall → WifiEvent → Bool

/-- Where `device_connect_station_task` is in its loop. -/
inductive ConnectStationTask where
  /-- At the test of `sta_lock`. -/
  | testing
  /-- In the scan of `station_find_ap`. -/
  | scanning
  /-- Before `station_connect`. -/
  | connecting
  deriving DecidableEq

structure StationDevice where
  station : Station
  cm : ChannelManager.State
  staLock : Bool
  /-- `s_retry_num`. -/
  retryNum : Nat
  /-- `sta_is_up` of `client.c`. -/
  staIsUp : Bool
  task : ConnectStationTask
  /-- History: the networks of the last scan that were allowed. -/
  candidates : List WifiApRecord
  /-- History: the calls so far, the newest first. -/
  log : List StationCall

inductive StationDeviceLabel where
  /-- The task tests `sta_lock` and the state of the station. -/
  | test
  /-- `station_find_ap` returns. -/
  | scanned (scan : List WifiApRecord)
  /-- `station_connect`. -/
  | connect
  /-- The event loop calls `event_handler`. -/
  | event (e : WifiEvent)
  /-- `on_sibling_message` of `channel_manager.c`, with the result of `node_is_network_provided`. -/
  | siblingMessage (networkProvided : Bool) (msg : List UInt8)
  /-- `device_enable_station`. -/
  | enableStation

namespace StationDevice

variable (t : StationDevice)

def start (station : Station) (cm : ChannelManager.State) : StationDevice where
  station := station
  cm := cm
  staLock := false
  retryNum := 0
  staIsUp := false
  task := .testing
  candidates := []
  log := []

def call (c : StationCall) : StationDevice := { t with log := c :: t.log }

/-- `station_connect`. -/
def stationConnect : StationDevice :=
  let called := (t.call .espNetifDhcpcStart).call (.espWifiSetConfig t.station.wifiConfig)
  let registered := (called.call (.espEventHandlerRegister .wifiEvent)).call
    (.espEventHandlerRegister .ipEvent)
  { registered with
    retryNum := 0
    station := { t.station with state := .active } }.call .espWifiConnect

/-- `station_disconnect`. -/
def stationDisconnect : StationDevice :=
  if t.station.state = .active then
    { t with retryNum := stationMaxRetries }.call .espWifiDisconnect
  else t

/-- `device_disable_station`. -/
def deviceDisableStation : StationDevice := { t with staLock := true }.stationDisconnect

/-- `client_open` and `client_close`. -/
def clientOpen : StationDevice := { t with staIsUp := true }.call .clientOpen

def clientClose : StationDevice := { t with staIsUp := false }.call .clientClose

/-- The client is closed with the connection. -/
def leaveAccessPoint : StationDevice :=
  if t.station.isFullyConnected then
    { t.clientClose with station := { t.station with isFullyConnected := false } }
  else t

/-- Another try, or the end of the connection. -/
def retryOrStop : StationDevice :=
  if t.retryNum < stationMaxRetries then
    { t.call .espWifiConnect with retryNum := t.retryNum + 1 }
  else
    { t with
      retryNum := 0
      station := { t.station with
        apFound := false
        state := .inactive
        isFullyConnected := false } }

/-- `WIFI_EVENT_STA_DISCONNECTED`. -/
def onDisconnected (tooMany : Bool) : Checked StationDevice :=
  if tooMany then do
    let cm ← cmBlockFullAp t.cm t.station.wifiApFound.ssid
    let t' := { t with cm, retryNum := stationMaxRetries }
    return t'.leaveAccessPoint.retryOrStop
  else return t.leaveAccessPoint.retryOrStop

/-- The siblings learn of the network. -/
def provideToSiblings : StationDevice :=
  let provided :=
    cmProvideToSiblings t.cm t.station.wifiApFound.primary t.station.wifiApFound.ssid
  { t with cm := provided.1 }.call (.cmProvideToSiblings provided.2)

/-- The telemetry, but on a board that is an access point at the same time. -/
def imHttpClientStart : StationDevice :=
  if t.station.isApsta then t else t.call .imHttpClientStart

/-- `IP_EVENT_STA_GOT_IP`. -/
def onGotIp (ip netmask : BitVec 32) : StationDevice :=
  if t.station.isFullyConnected then
    { t.provideToSiblings.imHttpClientStart.clientOpen with retryNum := 0 }
  else
    let subnetBaseHost := ip &&& netmask
    let connected := { t with station := { t.station with
      staSubnet := subnetBaseHost
      staMask := netmask
      isFullyConnected := true } }
    (connected.call .espNetifDhcpcStop).call
      (.espNetifSetIpInfo (subnetBaseHost + 2) (subnetBaseHost + 1) netmask)

/-- `event_handler`. -/
def eventHandler (e : WifiEvent) : Checked StationDevice :=
  match e with
  | .staDisconnected tooMany => (t.call (.eventHandler e)).onDisconnected tooMany
  | .staGotIp ip netmask => return (t.call (.eventHandler e)).onGotIp ip netmask
  | .other _ => return t.call (.eventHandler e)

def step (eventLoop : EventLoop) : StationDeviceLabel → Option StationDevice
  | .test =>
      if t.task = .testing then
        if t.staLock ∨ t.station.state = .active then some t else some { t with task := .scanning }
      else none
  | .scanned scan =>
      if t.task = .scanning then
        let station := t.station.stationFindAp t.cm scan
        some { t with
          station
          task := if station.apFound then .connecting else .testing
          candidates := scan.filter (t.station.allows t.cm) }
      else none
  | .connect =>
      if t.task = .connecting then some { t.stationConnect with task := .testing } else none
  | .event e =>
      if eventLoop t.log e then
        match t.eventHandler e with
        | .ok t' => some t'
        | .error _ => none
      else none
  | .siblingMessage networkProvided msg =>
      match ChannelManager.onSiblingMessage t.cm networkProvided msg with
      | .ok (cm, disabled) =>
          let t' := { t with cm }
          some (if disabled then t'.deviceDisableStation else t')
      | .error _ => none
  | .enableStation => some { t with staLock := false }

end StationDevice

def stationDeviceMachine (eventLoop : EventLoop) : Machine StationDevice StationDeviceLabel where
  step t l := t.step eventLoop l

/-! ### What the calls say -/

def StationCall.isWifiConnect : StationCall → Bool
  | .espWifiConnect => true
  | _ => false

def StationCall.isDisconnection : StationCall → Bool
  | .eventHandler (.staDisconnected _) => true
  | _ => false

def StationCall.isClientOpen : StationCall → Bool
  | .clientOpen => true
  | _ => false

/-- The calls of `esp_wifi_connect`. -/
def wifiConnects (log : List StationCall) : Nat := log.countP (·.isWifiConnect)

/-- The disconnections that were handled. -/
def disconnections (log : List StationCall) : Nat := log.countP (·.isDisconnection)

/-- The calls of `client_open`. -/
def clientOpens (log : List StationCall) : Nat := log.countP (·.isClientOpen)

/-- The calls of `esp_wifi_connect` since the network was set or the client opened. -/
def attempts : List StationCall → Nat
  | [] => 0
  | .espWifiConnect :: log => attempts log + 1
  | .espWifiSetConfig _ :: _ => 0
  | .clientOpen :: _ => 0
  | _ :: log => attempts log

/-- `WIFI_EVENT_STA_DISCONNECTED` is the answer to an `esp_wifi_connect`: there are never more of
them. -/
def EventLoop.Answers (eventLoop : EventLoop) : Prop :=
  ∀ log tooMany, eventLoop log (.staDisconnected tooMany) = true →
    disconnections log < wifiConnects log

/-- The connections that are open or being opened. -/
def StationState.toNat : StationState → Nat
  | .active => 1
  | .inactive => 0

/-! ## The scan -/

namespace Station

variable {station : Station} {cm : ChannelManager.State}

/-- The strongest of the allowed networks, and the first of several. -/
def strongest (station : Station) (cm : ChannelManager.State) (scan : List WifiApRecord) :
    Option WifiApRecord :=
  (scan.filter (station.allows cm)).maxOn? (·.rssi)

/-- One turn of the loop. -/
theorem bestAp_cons (best : Option WifiApRecord) (ap : WifiApRecord) (rest : List WifiApRecord)
    (hallowed : station.allows cm ap = true) :
    station.bestAp cm best (ap :: rest) =
      station.bestAp cm (some (best.elim ap (maxOn (·.rssi) · ap))) rest := by
  cases best with
  | none => exact if_pos hallowed
  | some b =>
      have hturn : (if b.rssi < ap.rssi then some ap else some b) =
          some (maxOn (·.rssi) b ap) := by
        split
        next hlt => rw [maxOn_eq_right (Int8.not_le.mpr hlt)]
        next hle => rw [maxOn_eq_left (Int8.not_lt.mp hle)]
      change station.bestAp cm (some b) (ap :: rest) =
        station.bestAp cm (some (maxOn (·.rssi) b ap)) rest
      rw [← hturn]
      exact if_pos hallowed

theorem bestAp_skip (best : Option WifiApRecord) (ap : WifiApRecord) (rest : List WifiApRecord)
    (hallowed : ¬ station.allows cm ap = true) :
    station.bestAp cm best (ap :: rest) = station.bestAp cm best rest := by
  cases best <;> exact if_neg hallowed

/-- The loop with the network it has kept so far. -/
theorem bestAp_eq (best : Option WifiApRecord) (scan : List WifiApRecord) :
    station.bestAp cm best scan =
      (best.toList ++ scan.filter (station.allows cm)).maxOn? (·.rssi) := by
  induction scan generalizing best with
  | nil => cases best <;> rfl
  | cons ap rest ih =>
      by_cases hallowed : station.allows cm ap = true
      · rw [bestAp_cons best ap rest hallowed, List.filter_cons_of_pos hallowed, ih]
        cases best with
        | none => rfl
        | some b =>
            change (maxOn (·.rssi) b ap :: rest.filter (station.allows cm)).maxOn? (·.rssi) =
              (b :: ap :: rest.filter (station.allows cm)).maxOn? (·.rssi)
            rw [List.maxOn?_cons_eq_some_maxOn, List.maxOn?_cons_eq_some_maxOn,
              List.maxOn_cons_cons]
      · rw [bestAp_skip best ap rest hallowed, List.filter_cons_of_neg hallowed]
        exact ih best

theorem bestAp_none (scan : List WifiApRecord) :
    station.bestAp cm none scan = station.strongest cm scan :=
  bestAp_eq none scan

/-- The loop of `station_scan_best_rssi` keeps the value of the network that the other loop
keeps. -/
theorem bestRssi_eq (best : Option WifiApRecord) (scan : List WifiApRecord) :
    station.bestRssi cm (best.elim (-128) (·.rssi)) scan =
      (station.bestAp cm best scan).elim (-128) (·.rssi) := by
  induction scan generalizing best with
  | nil => cases best <;> rfl
  | cons ap rest ih =>
      by_cases hallowed : station.allows cm ap = true
      · rw [bestAp_cons best ap rest hallowed, ← ih, bestRssi, if_pos hallowed]
        congr 1
        cases best with
        | none =>
            -- no value is below the first one
            change (if -128 < ap.rssi then ap.rssi else -128) = ap.rssi
            split
            next => rfl
            next hle => exact Int8.le_antisymm (Int8.minValue_le ap.rssi) (Int8.not_lt.mp hle)
        | some b =>
            change (if b.rssi < ap.rssi then ap.rssi else b.rssi) = (maxOn (·.rssi) b ap).rssi
            split
            next hlt => rw [maxOn_eq_right (Int8.not_le.mpr hlt)]
            next hle => rw [maxOn_eq_left (Int8.not_lt.mp hle)]
      · rw [bestAp_skip best ap rest hallowed, ← ih, bestRssi, if_neg hallowed]

theorem stationScanBestRssi_eq (scan : List WifiApRecord) :
    station.stationScanBestRssi cm scan = (station.strongest cm scan).elim (-128) (·.rssi) := by
  rw [stationScanBestRssi, ← bestAp_none]
  exact bestRssi_eq none scan

theorem stationFindAp_eq (station : Station) (cm : ChannelManager.State)
    (scan : List WifiApRecord) :
    station.stationFindAp cm scan =
      match station.strongest cm scan with
      | some ap =>
          { station with
            wifiApFound := ap
            apFound := true
            wifiConfig := station.wifiConfigOf ap }
      | none => { station with apFound := false } := by
  rw [stationFindAp, bestAp_none]

end Station

/-! ## What holds of the board -/

namespace StationDevice

variable {t u : StationDevice} {eventLoop : EventLoop}

/-- The station is set up for the strongest of the networks. -/
structure Chosen (station : Station) (candidates : List WifiApRecord) : Prop where
  config : station.wifiConfig = station.wifiConfigOf station.wifiApFound
  strongest : candidates.maxOn? (·.rssi) = some station.wifiApFound

/-- What holds of the board whatever the event loop does. -/
structure Inv (t : StationDevice) : Prop where
  index : t.cm.fullNetworkIndex < maxPeers
  task : t.task ≠ .testing → t.station.state = .inactive
  chosen : t.task = .connecting ∨ t.station.state = .active → Chosen t.station t.candidates
  retries : t.retryNum ≤ stationMaxRetries
  client : t.staIsUp = true → t.station.isFullyConnected = true

/-- What holds of the calls when the event loop answers them. -/
structure Answered (t : StationDevice) : Prop where
  calls : wifiConnects t.log = disconnections t.log + t.station.state.toNat
  tries : attempts t.log ≤ stationMaxRetries + 1
  retries : t.station.state = .active → attempts t.log ≤ t.retryNum + 1

theorem Inv.start (orientation o : NodeOrientation) (ssidLike deviceUuid password : List UInt8)
    (isApsta : Bool) :
    (start (stationInit ssidLike orientation deviceUuid password isApsta) (cmInit o)).Inv where
  index := by
    change 0 < maxPeers
    decide
  task h := absurd rfl h
  chosen h := by rcases h with h | h <;> cases h
  retries := Nat.zero_le _
  client h := by cases h

theorem Answered.start (orientation o : NodeOrientation)
    (ssidLike deviceUuid password : List UInt8) (isApsta : Bool) :
    (StationDevice.start (stationInit ssidLike orientation deviceUuid password isApsta)
      (cmInit o)).Answered where
  calls := rfl
  tries := Nat.zero_le _
  retries h := by cases h

theorem inactive_of_not_active (h : ¬ t.station.state = .active) : t.station.state = .inactive := by
  cases hstate : t.station.state with
  | active => exact absurd hstate h
  | inactive => rfl

/-! ### The task -/

theorem Inv.test (h : t.Inv) (hs : t.step eventLoop .test = some u) : u.Inv := by
  simp only [step] at hs
  split at hs
  next htask =>
    split at hs
    next =>
      cases hs
      exact h
    next hfree =>
      cases hs
      obtain ⟨-, hinactive⟩ := not_or.mp hfree
      exact { h with
        task := fun _ => inactive_of_not_active hinactive
        chosen := fun hchosen => by
          rcases hchosen with hchosen | hactive
          · cases hchosen
          · exact absurd hactive hinactive }
  next => cases hs

theorem Inv.scanned (h : t.Inv) {scan : List WifiApRecord}
    (hs : t.step eventLoop (.scanned scan) = some u) : u.Inv := by
  simp only [step] at hs
  split at hs
  next htask =>
    have hstate := h.task (by rw [htask]; decide)
    rw [Station.stationFindAp_eq] at hs
    cases hfound : t.station.strongest t.cm scan with
    | some ap =>
        rw [hfound] at hs
        cases hs
        exact { h with
          task := fun _ => hstate
          chosen := fun _ => ⟨rfl, hfound⟩ }
    | none =>
        rw [hfound] at hs
        cases hs
        exact { h with
          task := fun hne => absurd rfl hne
          chosen := fun hchosen => by
            rcases hchosen with hchosen | hactive
            · cases hchosen
            · rw [hstate] at hactive
              cases hactive }
  next => cases hs

theorem Inv.connect (h : t.Inv) (hs : t.step eventLoop .connect = some u) : u.Inv := by
  simp only [step] at hs
  split at hs
  next htask =>
    cases hs
    have hchosen := h.chosen (.inl htask)
    exact {
      index := h.index
      task := fun hne => absurd rfl hne
      chosen := fun _ => ⟨hchosen.config, hchosen.strongest⟩
      retries := Nat.zero_le _
      client := h.client }
  next => cases hs

/-! ### The event handler -/

theorem leaveAccessPoint_frame (t : StationDevice) :
    t.leaveAccessPoint.station.state = t.station.state ∧
      t.leaveAccessPoint.retryNum = t.retryNum ∧ t.leaveAccessPoint.staLock = t.staLock ∧
      t.leaveAccessPoint.task = t.task ∧
      (t.leaveAccessPoint.log = t.log ∨ t.leaveAccessPoint.log = .clientClose :: t.log) := by
  unfold leaveAccessPoint
  split
  next => exact ⟨rfl, rfl, rfl, rfl, .inr rfl⟩
  next => exact ⟨rfl, rfl, rfl, rfl, .inl rfl⟩

theorem Inv.leaveAccessPoint (h : t.Inv) : t.leaveAccessPoint.Inv := by
  unfold StationDevice.leaveAccessPoint
  split
  next =>
    exact { h with
      chosen := fun hchosen => ⟨(h.chosen hchosen).config, (h.chosen hchosen).strongest⟩
      client := fun hup => by cases hup }
  next => exact h

theorem leaveAccessPoint_closed (h : t.Inv) : t.leaveAccessPoint.staIsUp = false := by
  unfold leaveAccessPoint
  split
  next => rfl
  next hnot =>
    cases hup : t.staIsUp with
    | false => rfl
    | true => exact absurd (h.client hup) hnot

theorem retryOrStop_retries (h : t.retryNum < stationMaxRetries) :
    t.retryOrStop = { t.call .espWifiConnect with retryNum := t.retryNum + 1 } :=
  if_pos h

/-- Without a try left the handler stops. -/
theorem retryOrStop_stops (h : ¬ t.retryNum < stationMaxRetries) :
    t.retryOrStop.station.state = .inactive ∧ t.retryOrStop.staLock = t.staLock ∧
      t.retryOrStop.task = t.task ∧ t.retryOrStop.log = t.log := by
  unfold retryOrStop
  rw [if_neg h]
  exact ⟨rfl, rfl, rfl, rfl⟩

theorem Inv.retryOrStop (h : t.Inv) (hclosed : t.staIsUp = false) : t.retryOrStop.Inv := by
  unfold StationDevice.retryOrStop
  split
  next hretry => exact { h with retries := hretry }
  next =>
    exact {
      index := h.index
      task := fun _ => rfl
      chosen := fun hchosen => by
        rcases hchosen with htask | hactive
        · exact ⟨(h.chosen (.inl htask)).config, (h.chosen (.inl htask)).strongest⟩
        · cases hactive
      retries := Nat.zero_le _
      client := fun hup => by
        change t.staIsUp = true at hup
        rw [hclosed] at hup
        cases hup }

theorem cmBlockFullAp_index {cm : ChannelManager.State} (h : cm.fullNetworkIndex < maxPeers)
    (networkName : NetworkName) :
    ∃ cm', cmBlockFullAp cm networkName = .ok cm' ∧ cm'.fullNetworkIndex < maxPeers := by
  rw [cmBlockFullAp, store_of_lt cm.fullNetworks h]
  exact ⟨_, rfl, Nat.mod_lt _ (by decide)⟩

/-- The handler of a disconnection leaves the network; when its access point is full, without
another try. -/
theorem Inv.eventHandler_disconnected (h : t.Inv) (tooMany : Bool) :
    ∃ cm, cm.fullNetworkIndex < maxPeers ∧ t.eventHandler (.staDisconnected tooMany) =
      .ok ({ t.call (.eventHandler (.staDisconnected tooMany)) with
        cm
        retryNum := if tooMany then stationMaxRetries else t.retryNum } :
          StationDevice).leaveAccessPoint.retryOrStop := by
  cases tooMany with
  | false => exact ⟨t.cm, h.index, rfl⟩
  | true =>
      obtain ⟨cm, hcm, hindex⟩ := cmBlockFullAp_index h.index t.station.wifiApFound.ssid
      refine ⟨cm, hindex, ?_⟩
      change onDisconnected _ true = _
      unfold onDisconnected
      rw [if_pos rfl]
      change (cmBlockFullAp t.cm t.station.wifiApFound.ssid >>= _) = _
      rw [hcm]
      rfl

theorem imHttpClientStart_eq (t : StationDevice) :
    t.imHttpClientStart = t ∨ t.imHttpClientStart = t.call .imHttpClientStart := by
  unfold imHttpClientStart
  split
  next => exact .inl rfl
  next => exact .inr rfl

theorem imHttpClientStart_frame (t : StationDevice) :
    t.provideToSiblings.imHttpClientStart.station = t.station ∧
      t.provideToSiblings.imHttpClientStart.retryNum = t.retryNum ∧
      t.provideToSiblings.imHttpClientStart.staLock = t.staLock ∧
      t.provideToSiblings.imHttpClientStart.task = t.task := by
  rcases imHttpClientStart_eq t.provideToSiblings with heq | heq
  · rw [heq]
    exact ⟨rfl, rfl, rfl, rfl⟩
  · rw [heq]
    exact ⟨rfl, rfl, rfl, rfl⟩

theorem Inv.provideToSiblings (h : t.Inv) : t.provideToSiblings.Inv := { h with index := h.index }

theorem Inv.imHttpClientStart (h : t.Inv) : t.imHttpClientStart.Inv := by
  rcases imHttpClientStart_eq t with heq | heq
  · rw [heq]
    exact h
  · rw [heq]
    exact { h with }

theorem Inv.onGotIp (h : t.Inv) (ip netmask : BitVec 32) : (t.onGotIp ip netmask).Inv := by
  unfold StationDevice.onGotIp
  split
  next hconnected =>
    exact { h.provideToSiblings.imHttpClientStart with
      retries := Nat.zero_le _
      client := fun _ => by
        change t.provideToSiblings.imHttpClientStart.station.isFullyConnected = true
        rw [(imHttpClientStart_frame t).1]
        exact hconnected }
  next =>
    exact { h with
      chosen := fun hchosen => ⟨(h.chosen hchosen).config, (h.chosen hchosen).strongest⟩
      client := fun _ => rfl }

/-- The handler takes every event. -/
theorem Inv.eventHandler (h : t.Inv) (e : WifiEvent) :
    ∃ u, t.eventHandler e = .ok u ∧ u.Inv := by
  have hcalled : (t.call (.eventHandler e)).Inv := { h with }
  cases e with
  | staDisconnected tooMany =>
      obtain ⟨cm, hindex, hhandled⟩ := h.eventHandler_disconnected tooMany
      refine ⟨_, hhandled, ?_⟩
      have hinv : ({ t.call (.eventHandler (.staDisconnected tooMany)) with
          cm
          retryNum := if tooMany then stationMaxRetries else t.retryNum } : StationDevice).Inv :=
        { h with
          index := hindex
          retries := by
            cases tooMany with
            | true => exact Nat.le_refl _
            | false => exact h.retries }
      exact hinv.leaveAccessPoint.retryOrStop (leaveAccessPoint_closed hinv)
  | staGotIp ip netmask => exact ⟨_, rfl, hcalled.onGotIp ip netmask⟩
  | other eventId => exact ⟨_, rfl, hcalled⟩

theorem Inv.step_event (h : t.Inv) {e : WifiEvent} (he : eventLoop t.log e = true) :
    ∃ u, t.step eventLoop (.event e) = some u ∧ t.eventHandler e = .ok u ∧ u.Inv := by
  obtain ⟨u, hu, hinv⟩ := h.eventHandler e
  refine ⟨u, ?_, hu, hinv⟩
  simp only [step, hu]
  exact if_pos he

theorem Inv.of_event (h : t.Inv) {e : WifiEvent} (hs : t.step eventLoop (.event e) = some u) :
    eventLoop t.log e = true ∧ t.eventHandler e = .ok u ∧ u.Inv := by
  have he : eventLoop t.log e = true := by
    by_contra hnot
    simp only [step] at hs
    rw [if_neg hnot] at hs
    cases hs
  obtain ⟨u', hu', hhandled, hinv⟩ := h.step_event he
  rw [hu'] at hs
  cases hs
  exact ⟨he, hhandled, hinv⟩

/-! ### The lock -/

/-- A packet of a sibling does not touch the list of full networks; of the right length, and before
the network is provided, it disables the station. -/
theorem onSiblingMessage_spec {cm cm' : ChannelManager.State} {networkProvided disabled : Bool}
    {msg : List UInt8}
    (h : ChannelManager.onSiblingMessage cm networkProvided msg = .ok (cm', disabled)) :
    cm'.fullNetworkIndex = cm.fullNetworkIndex ∧
      (disabled = true ↔ networkProvided = false ∧ msg.length = sizeofCmMessage) := by
  have hstore := store_of_lt cm.blockedNetworks
    (clamp_lt (by decide : 0 < maxPeers) (CmMessage.decode msg).orientation.toNat)
    (uuidEntry (CmMessage.decode msg).networkName)
  have hload := load_of_lt (CmMessage.decode msg).channels cm.orientation.isLt
  unfold ChannelManager.onSiblingMessage at h
  split at h
  next hlength =>
    cases h
    exact ⟨rfl, nofun, fun hright => absurd hright.2 hlength⟩
  next hlength =>
    dsimp only at h
    rw [hstore, hload] at h
    cases networkProvided with
    | true =>
        cases h
        exact ⟨rfl, nofun, nofun⟩
    | false =>
        cases h
        exact ⟨rfl, fun _ => ⟨rfl, not_not.mp hlength⟩, fun _ => rfl⟩

theorem Inv.withPacket (h : t.Inv) {cm : ChannelManager.State} {networkProvided disabled : Bool}
    {msg : List UInt8}
    (hcm : ChannelManager.onSiblingMessage t.cm networkProvided msg = .ok (cm, disabled)) :
    ({ t with cm } : StationDevice).Inv :=
  { h with index := (onSiblingMessage_spec hcm).1.trans_lt h.index }

theorem deviceDisableStation_frame (t : StationDevice) :
    t.deviceDisableStation.station = t.station ∧ t.deviceDisableStation.cm = t.cm ∧
      t.deviceDisableStation.task = t.task ∧ t.deviceDisableStation.staLock = true := by
  unfold deviceDisableStation stationDisconnect
  split <;> exact ⟨rfl, rfl, rfl, rfl⟩

theorem deviceDisableStation_active (h : t.station.state = .active) :
    t.deviceDisableStation.retryNum = stationMaxRetries := by
  unfold deviceDisableStation stationDisconnect
  rw [if_pos h]
  rfl

theorem Inv.deviceDisableStation (h : t.Inv) : t.deviceDisableStation.Inv := by
  unfold StationDevice.deviceDisableStation stationDisconnect
  split
  next => exact { h with retries := Nat.le_refl _ }
  next => exact { h with }

/-- A packet of a sibling leaves the board as it is but for its channel manager, or locks it. -/
theorem siblingMessage_eq {networkProvided : Bool} {msg : List UInt8}
    (hs : t.step eventLoop (.siblingMessage networkProvided msg) = some u) :
    ∃ cm disabled, ChannelManager.onSiblingMessage t.cm networkProvided msg = .ok (cm, disabled) ∧
      u = if disabled then ({ t with cm } : StationDevice).deviceDisableStation
        else { t with cm } := by
  simp only [StationDevice.step] at hs
  split at hs
  next cm disabled hcm =>
    cases hs
    exact ⟨cm, disabled, hcm, rfl⟩
  next => cases hs

theorem Inv.siblingMessage (h : t.Inv) {networkProvided : Bool} {msg : List UInt8}
    (hs : t.step eventLoop (.siblingMessage networkProvided msg) = some u) : u.Inv := by
  obtain ⟨cm, disabled, hcm, rfl⟩ := siblingMessage_eq hs
  have hinv := h.withPacket hcm
  cases disabled with
  | true => exact hinv.deviceDisableStation
  | false => exact hinv

theorem Inv.step {l : StationDeviceLabel} (h : t.Inv) (hs : t.step eventLoop l = some u) :
    u.Inv := by
  cases l with
  | test => exact h.test hs
  | scanned scan => exact h.scanned hs
  | connect => exact h.connect hs
  | event e => exact (h.of_event hs).2.2
  | siblingMessage networkProvided msg => exact h.siblingMessage hs
  | enableStation =>
      cases hs
      exact { h with }

theorem Inv.of_run {t₀ : StationDevice}
    (run : (stationDeviceMachine eventLoop).Reaches t₀ t) (h : t₀.Inv) : t.Inv :=
  run.invariant h fun _ _ _ h _ hs => h.step hs

/-! ### The calls -/

section Counts

variable {c : StationCall} {log log' log'' : List StationCall}

theorem wifiConnects_cons (c : StationCall) (log : List StationCall) :
    wifiConnects (c :: log) = wifiConnects log + c.isWifiConnect.toNat := by
  rw [wifiConnects, wifiConnects, List.countP_cons]
  cases c.isWifiConnect <;> rfl

theorem disconnections_cons (c : StationCall) (log : List StationCall) :
    disconnections (c :: log) = disconnections log + c.isDisconnection.toNat := by
  rw [disconnections, disconnections, List.countP_cons]
  cases c.isDisconnection <;> rfl

theorem clientOpens_cons (c : StationCall) (log : List StationCall) :
    clientOpens (c :: log) = clientOpens log + c.isClientOpen.toNat := by
  rw [clientOpens, clientOpens, List.countP_cons]
  cases c.isClientOpen <;> rfl

/-- Two logs that differ in calls that no count is about. -/
structure SameCounts (log log' : List StationCall) : Prop where
  connects : wifiConnects log = wifiConnects log'
  disconnects : disconnections log = disconnections log'
  opens : clientOpens log = clientOpens log'
  tries : attempts log = attempts log'

theorem SameCounts.refl (log : List StationCall) : SameCounts log log := ⟨rfl, rfl, rfl, rfl⟩

theorem SameCounts.cons (h : SameCounts log log') (hconnect : c.isWifiConnect = false)
    (hdisconnection : c.isDisconnection = false) (hopen : c.isClientOpen = false)
    (hattempts : attempts (c :: log) = attempts log) : SameCounts (c :: log) log' where
  connects := by rw [wifiConnects_cons, hconnect, h.connects]; rfl
  disconnects := by rw [disconnections_cons, hdisconnection, h.disconnects]; rfl
  opens := by rw [clientOpens_cons, hopen, h.opens]; rfl
  tries := hattempts.trans h.tries

theorem leaveAccessPoint_counts (t : StationDevice) :
    SameCounts t.leaveAccessPoint.log t.log := by
  rcases (leaveAccessPoint_frame t).2.2.2.2 with hlog | hlog
  · rw [hlog]
    exact .refl _
  · rw [hlog]
    exact (SameCounts.refl _).cons rfl rfl rfl rfl

theorem imHttpClientStart_counts (t : StationDevice) :
    SameCounts t.provideToSiblings.imHttpClientStart.log t.log := by
  have hprovided : SameCounts t.provideToSiblings.log t.log :=
    (SameCounts.refl _).cons rfl rfl rfl rfl
  rcases imHttpClientStart_eq t.provideToSiblings with heq | heq
  · rw [heq]
    exact hprovided
  · rw [heq]
    exact hprovided.cons rfl rfl rfl rfl

theorem deviceDisableStation_counts (h : t.Inv) :
    t.retryNum ≤ t.deviceDisableStation.retryNum ∧ t.log <:+ t.deviceDisableStation.log ∧
      SameCounts t.deviceDisableStation.log t.log := by
  unfold deviceDisableStation stationDisconnect
  split
  next => exact ⟨h.retries, List.suffix_cons _ _, (SameCounts.refl _).cons rfl rfl rfl rfl⟩
  next => exact ⟨Nat.le_refl _, List.suffix_refl _, .refl _⟩

end Counts

theorem Answered.of_counts (h : t.Answered) (hstate : u.station.state = t.station.state)
    (hretries : t.retryNum ≤ u.retryNum) (hcounts : SameCounts u.log t.log) : u.Answered where
  calls := by
    rw [hcounts.connects, hcounts.disconnects, hstate]
    exact h.calls
  tries := by
    rw [hcounts.tries]
    exact h.tries
  retries hactive := by
    have hle := h.retries (hstate ▸ hactive)
    rw [hcounts.tries]
    omega

/-- A disconnection is handled only while a connection is open or being opened. -/
theorem Answered.active (h : t.Answered)
    (hfewer : disconnections t.log < wifiConnects t.log) : t.station.state = .active := by
  have hcalls := h.calls
  cases hstate : t.station.state with
  | active => rfl
  | inactive =>
      rw [hstate] at hcalls
      change wifiConnects t.log = disconnections t.log at hcalls
      omega

theorem Answered.onGotIp (h : t.Answered) (ip netmask : BitVec 32) :
    (t.onGotIp ip netmask).Answered := by
  unfold StationDevice.onGotIp
  split
  next =>
    obtain ⟨hstation, hretries, -, -⟩ := imHttpClientStart_frame t
    have hprovided : t.provideToSiblings.imHttpClientStart.Answered :=
      h.of_counts (congrArg _ hstation) hretries.ge (imHttpClientStart_counts t)
    exact {
      calls := by
        change wifiConnects (_ :: t.provideToSiblings.imHttpClientStart.log) =
          disconnections (_ :: t.provideToSiblings.imHttpClientStart.log) +
            t.provideToSiblings.imHttpClientStart.station.state.toNat
        rw [wifiConnects_cons, disconnections_cons]
        exact hprovided.calls
      tries := Nat.zero_le _
      retries := fun _ => Nat.zero_le _ }
  next =>
    exact h.of_counts rfl (Nat.le_refl _)
      (((SameCounts.refl _).cons rfl rfl rfl rfl).cons rfl rfl rfl rfl)

/-- The handler has been called for the connection that there was. -/
theorem Answered.leaves (hactive : t.station.state = .active)
    (hcalls : wifiConnects t.log = disconnections t.log)
    (hattempts : attempts t.log ≤ t.retryNum + 1) (hretries : t.retryNum ≤ stationMaxRetries) :
    t.leaveAccessPoint.retryOrStop.Answered := by
  obtain ⟨hstate, hnum, -, -, -⟩ := leaveAccessPoint_frame t
  have hcounts := leaveAccessPoint_counts t
  by_cases hretry : t.leaveAccessPoint.retryNum < stationMaxRetries
  · rw [retryOrStop_retries hretry]
    have htries : attempts t.leaveAccessPoint.log ≤ t.leaveAccessPoint.retryNum + 1 := by
      rw [hcounts.tries, hnum]
      exact hattempts
    exact {
      calls := by
        change wifiConnects (.espWifiConnect :: t.leaveAccessPoint.log) =
          disconnections (.espWifiConnect :: t.leaveAccessPoint.log) +
            t.leaveAccessPoint.station.state.toNat
        rw [wifiConnects_cons, disconnections_cons, hcounts.connects, hcounts.disconnects, hstate,
          hactive, hcalls]
        rfl
      tries := by
        change attempts t.leaveAccessPoint.log + 1 ≤ stationMaxRetries + 1
        omega
      retries := fun _ => Nat.succ_le_succ htries }
  · obtain ⟨hinactive, -, -, hlog⟩ := retryOrStop_stops hretry
    have htries : attempts t.leaveAccessPoint.log = attempts t.log := hcounts.tries
    exact {
      calls := by
        rw [hlog, hinactive, hcounts.connects, hcounts.disconnects]
        exact hcalls
      tries := by
        rw [hlog]
        omega
      retries := fun hc => by
        rw [hinactive] at hc
        cases hc }

theorem Answered.eventHandler (h : t.Answered) (hinv : t.Inv) (answers : eventLoop.Answers)
    {e : WifiEvent} (he : eventLoop t.log e = true) (hs : t.eventHandler e = .ok u) :
    u.Answered := by
  cases e with
  | staDisconnected tooMany =>
      have hfewer := answers t.log tooMany he
      have hactive := h.active hfewer
      obtain ⟨cm, -, hhandled⟩ := hinv.eventHandler_disconnected tooMany
      rw [hhandled] at hs
      cases hs
      have hattempts := h.retries hactive
      refine leaves hactive ?_ ?_ ?_
      · change wifiConnects (_ :: t.log) = disconnections (_ :: t.log)
        have hcalls := h.calls
        rw [hactive] at hcalls
        rw [wifiConnects_cons, disconnections_cons]
        exact hcalls
      · change attempts t.log ≤ (if tooMany then stationMaxRetries else t.retryNum) + 1
        cases tooMany with
        | true => exact h.tries
        | false => exact hattempts
      · cases tooMany with
        | true => exact Nat.le_refl _
        | false => exact hinv.retries
  | staGotIp ip netmask =>
      cases hs
      have hquiet : SameCounts (StationCall.eventHandler (.staGotIp ip netmask) :: t.log) t.log :=
        (SameCounts.refl _).cons rfl rfl rfl rfl
      have hcalled : (t.call (.eventHandler (.staGotIp ip netmask))).Answered :=
        h.of_counts rfl (Nat.le_refl _) hquiet
      exact hcalled.onGotIp ip netmask
  | other eventId =>
      cases hs
      exact h.of_counts rfl (Nat.le_refl _) ((SameCounts.refl _).cons rfl rfl rfl rfl)

theorem Answered.connect (h : t.Answered) (hinv : t.Inv)
    (hs : t.step eventLoop .connect = some u) : u.Answered := by
  simp only [StationDevice.step] at hs
  split at hs
  next htask =>
    cases hs
    have hcalls := h.calls
    rw [hinv.task (by rw [htask]; decide)] at hcalls
    exact {
      calls := by
        change wifiConnects (_ :: _ :: _ :: _ :: _ :: t.log) =
          disconnections (_ :: _ :: _ :: _ :: _ :: t.log) + 1
        simp only [wifiConnects_cons, disconnections_cons]
        exact congrArg (· + 1) hcalls
      tries := Nat.succ_le_succ (Nat.zero_le _)
      retries := fun _ => Nat.le_refl 1 }
  next => cases hs

theorem Answered.deviceDisableStation (h : t.Answered) (hinv : t.Inv) :
    t.deviceDisableStation.Answered := by
  obtain ⟨hretries, -, hcounts⟩ := deviceDisableStation_counts hinv
  exact h.of_counts (congrArg _ (deviceDisableStation_frame t).1) hretries hcounts

theorem Answered.step {l : StationDeviceLabel} (h : t.Answered) (hinv : t.Inv)
    (answers : eventLoop.Answers) (hs : t.step eventLoop l = some u) : u.Answered := by
  cases l with
  | test =>
      simp only [StationDevice.step] at hs
      split at hs
      next =>
        split at hs <;> cases hs
        · exact h
        · exact { h with }
      next => cases hs
  | scanned scan =>
      simp only [StationDevice.step] at hs
      split at hs
      next =>
        cases hs
        refine h.of_counts ?_ (Nat.le_refl _) (.refl _)
        rw [Station.stationFindAp_eq]
        cases t.station.strongest t.cm scan <;> rfl
      next => cases hs
  | connect => exact h.connect hinv hs
  | event e =>
      obtain ⟨he, hhandled, -⟩ := hinv.of_event hs
      exact h.eventHandler hinv answers he hhandled
  | siblingMessage networkProvided msg =>
      obtain ⟨cm, disabled, hcm, rfl⟩ := siblingMessage_eq hs
      have hpacket : ({ t with cm } : StationDevice).Answered := { h with }
      cases disabled with
      | true => exact hpacket.deviceDisableStation (hinv.withPacket hcm)
      | false => exact hpacket
  | enableStation =>
      cases hs
      exact { h with }

theorem Answered.of_run {t₀ : StationDevice}
    (run : (stationDeviceMachine eventLoop).Reaches t₀ t) (answers : eventLoop.Answers)
    (hinv : t₀.Inv) (h : t₀.Answered) : t.Inv ∧ t.Answered := by
  induction run with
  | refl => exact ⟨hinv, h⟩
  | tail _ _ hs ih =>
      obtain ⟨hinv, h⟩ := ih
      exact ⟨hinv.step hs, h.step hinv answers hs⟩

end StationDevice

/-- Whatever ESP-IDF and the siblings do, an active station is set up for the strongest network that
was allowed in the last scan, whose strength is also what the siblings are told; the client is open
only on a connected station, and the handler takes every event. With an event loop that answers the
calls, `esp_wifi_connect` is called only by a station that has no connection, opened or being
opened, and at most `MAX_RETRIES` times more before the client opens or the station gives up. -/
theorem station_connectsToStrongest (eventLoop : EventLoop) (orientation o : NodeOrientation)
    (ssidLike deviceUuid password : List UInt8) (isApsta : Bool) (t : StationDevice)
    (run : (stationDeviceMachine eventLoop).Reaches
      (.start (stationInit ssidLike orientation deviceUuid password isApsta) (cmInit o)) t) :
    (t.station.state = .active →
      t.station.wifiConfig = t.station.wifiConfigOf t.station.wifiApFound ∧
      t.candidates.maxOn? (·.rssi) = some t.station.wifiApFound) ∧
    (∀ scan, t.station.stationScanBestRssi t.cm scan =
      ((scan.filter (t.station.allows t.cm)).maxOn? (·.rssi)).elim (-128) (·.rssi)) ∧
    (t.staIsUp = true → t.station.isFullyConnected = true) ∧
    (∀ e, eventLoop t.log e = true → ∃ u, t.step eventLoop (.event e) = some u) ∧
    (eventLoop.Answers →
      wifiConnects t.log = disconnections t.log + t.station.state.toNat ∧
      attempts t.log ≤ stationMaxRetries + 1) := by
  have start := StationDevice.Inv.start orientation o ssidLike deviceUuid password isApsta
  have h : t.Inv := .of_run run start
  refine ⟨fun hactive => ?_, fun scan => Station.stationScanBestRssi_eq scan, h.client,
    fun e he => ?_, fun answers => ?_⟩
  · have hchosen := h.chosen (.inr hactive)
    exact ⟨hchosen.config, hchosen.strongest⟩
  · obtain ⟨u, hu, -, -⟩ := h.step_event he
    exact ⟨u, hu⟩
  · obtain ⟨-, hanswered⟩ := StationDevice.Answered.of_run run answers start
      (.start orientation o ssidLike deviceUuid password isApsta)
    exact ⟨hanswered.calls, hanswered.tries⟩

/-- Two nodes to the north, the second one nearer. -/
def neighbourScan : List WifiApRecord :=
  [⟨.replicate 6 1, recordOf (nodeNamePrefix ++ devOrientation[1] ++ .replicate 12 0x42), 7, -70⟩,
    ⟨.replicate 6 2, recordOf (nodeNamePrefix ++ devOrientation[1] ++ .replicate 12 0x43), 11, -50⟩]

/-- Disconnections and addresses for a call that has had no disconnection yet. -/
def answering : EventLoop
  | log, .staDisconnected _ => disconnections log < wifiConnects log
  | log, .staGotIp _ _ => disconnections log < wifiConnects log
  | _, .other _ => true

theorem answering_answers : answering.Answers := fun _ _ h => of_decide_eq_true h

/-- The station gets its network at the second try and takes the static address. -/
def joinNeighbour : List StationDeviceLabel :=
  [.test, .scanned neighbourScan, .connect, .event (.other 4), .event (.staDisconnected false),
    .event (.staGotIp 0x0a000007#32 0xfffffffc#32), .event (.staGotIp 0x0a000006#32 0xfffffffc#32)]

def northStation : StationDevice :=
  .start (stationInit nodeNamePrefix ⟨0, Nat.succ_pos 4⟩ (.replicate 12 0x41) [] false)
    (cmInit ⟨0, Nat.succ_pos 4⟩)

theorem station_connectsToStrongest_neighbour :
    ∃ t, (stationDeviceMachine answering).run northStation joinNeighbour = some t ∧
      t.staIsUp = true ∧ t.station.isFullyConnected = true ∧
      t.station.wifiConfig = t.station.wifiConfigOf t.station.wifiApFound ∧
      t.candidates.maxOn? (·.rssi) = some t.station.wifiApFound ∧
      wifiConnects t.log = disconnections t.log + 1 ∧ attempts t.log ≤ stationMaxRetries + 1 := by
  have joined : ((stationDeviceMachine answering).run northStation joinNeighbour).any fun t =>
      t.staIsUp && decide (t.station.state = .active) := by
    decide +kernel
  obtain ⟨t, ht, hboth⟩ := (Option.any_eq_true _ _).mp joined
  obtain ⟨hup, hstate⟩ := Bool.and_eq_true_iff.mp hboth
  obtain ⟨hchosen, -, hclient, -, hanswered⟩ :=
    station_connectsToStrongest answering 0 0 nodeNamePrefix (.replicate 12 0x41) [] false t
      (Machine.reaches_of_run ht)
  have hactive : t.station.state = .active := of_decide_eq_true hstate
  obtain ⟨hconfig, hstrongest⟩ := hchosen hactive
  obtain ⟨hcalls, htries⟩ := hanswered answering_answers
  rw [hactive] at hcalls
  exact ⟨t, ht, hup, hclient hup, hconfig, hstrongest, hcalls, htries⟩

end I4A
