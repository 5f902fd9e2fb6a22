import SpinevBle.Charger.Program
import SpinevBle.Protocol.Alarms
import SpinevBle.Protocol.Text

/-!
# All methods of the client

The reads that are one or more requests, and every method of `SpinEvCharger` that talks to the
charger as a value of its own, so that a statement can speak of all of them.
-/

namespace SpinevBle

open Interaction

/-! ### Single registers -/

/-- Read a text register and return it decoded. -/
def asyncReadString (register : ℤ) : Client String := do
  let frame ← raising (buildRead register)
  let payload ← request frame frame.register
  return decodeString (payload.drop 4)

/-- Read a register and decode its value. -/
def readValue {α : Type} (register : Register) (decode : Bytes → Except Exc α) : Client α := do
  let raw ← asyncReadRaw register.id
  raising (decode raw)

def asyncGetState : Client ChargerState := do
  let value ← asyncGetStateValue
  match ChargerState.ofValue? value with
  | some state => return state
  | none => throw (.spinEv .protocol s!"unknown charger state {value}")

def asyncGetPower : Client PyFloat := readValue .power decodeFloat

def asyncGetVoltage : Client PyFloat := readValue .voltage decodeFloat

def asyncGetCurrent : Client PyFloat := readValue .current decodeFloat

def asyncGetCurrentLimit : Client PyFloat := readValue .currentLimit decodeFloat

def asyncGetRandomDelay : Client ℕ := readValue .randomDelay decodeUInt

/-- Read the charger's UTC offset as hours and minutes. -/
def asyncGetTimezone : Client (ℕ × ℕ) := do
  let value ← readValue .timezone decodeUInt
  return (value >>> 8 &&& 0xFF, value &&& 0xFF)

def asyncGetWifiSsid : Client String := asyncReadString Register.wifiSsid.id

def asyncGetWifiPassword : Client String := asyncReadString Register.wifiPassword.id

/-! ### Alarms -/

/-- Read one alarm word. -/
def asyncReadAlarmWord (bank : ℕ) : Client ℕ := do
  let frame ← raising (buildAlarmRead bank)
  let payload ← request frame Register.alarms.value
  let value ← raising (valueBytes payload s!"alarm bank {bank}")
  raising (decodeUInt value)

/-- One round of `async_get_alarm_defs`: a charger that never answers the bank 2 read has no bank 2
alarms. -/
def addAlarmDefs (active : List AlarmDef) (bank : ℕ) : Client (List AlarmDef) := do
  let word ← tryCatch (some <$> asyncReadAlarmWord bank) fun err =>
    match err with
    | .spinEv .timeout _ => if bank = 1 then throw err else return none
    | err => throw err
  match word with
  | some word => return active ++ (← raising (decodeAlarmDefs word bank))
  | none => return active

/-- Read the active alarms as full definitions. -/
def asyncGetAlarmDefs : Client (List AlarmDef) := alarmBanks.foldlM addAlarmDefs []

def asyncGetAlarms : Client (List String) := do
  return (← asyncGetAlarmDefs).map AlarmDef.name

/-! ### Several registers -/

/-- A snapshot of the charger. `state` is `none` when the charger reported a value that the library
does not recognise. -/
structure ChargerStatus where
  state : Option ChargerState
  stateValue : ℕ
  powerW : PyFloat
  voltageV : PyFloat
  currentA : PyFloat
  currentLimitA : PyFloat
  sessionEnergyKwh : ℚ
  sessionSeconds : ℕ
  lifetimeEnergyKwh : ℚ
  lifetimeSeconds : ℕ
  firmwareVersion : String
  alarms : List String
  deriving DecidableEq

/-- Read everything useful in one pass. -/
def asyncGetStatus : Client ChargerStatus := do
  let stateValue ← asyncGetStateValue
  let powerW ← readValue .power decodeFloat
  let voltageV ← readValue .voltage decodeFloat
  let currentA ← readValue .current decodeFloat
  let currentLimitA ← readValue .currentLimit decodeFloat
  let sessionEnergyKwh ← readValue .sessionEnergy decodeEnergy
  let sessionSeconds ← readValue .sessionSeconds decodeUInt
  let lifetimeEnergyKwh ← readValue .lifetimeEnergy decodeEnergy
  let lifetimeSeconds ← readValue .lifetimeSeconds decodeUInt
  let firmwareVersion ← readValue .firmwareVersion decodeFirmwareVersion
  let alarms ← asyncGetAlarms
  return { state := ChargerState.ofValue? stateValue, stateValue, powerW, voltageV, currentA,
           currentLimitA, sessionEnergyKwh, sessionSeconds, lifetimeEnergyKwh, lifetimeSeconds,
           firmwareVersion, alarms }

/-- How the charger shares a supply with the rest of the installation. -/
structure LoadBalancingConfig where
  enabled : Bool
  gridCurrentLimitA : PyFloat
  safeCurrentOffsetA : PyFloat
  reduceCurrentOffsetA : PyFloat
  maxGridPowerW : PyFloat
  source : ℕ
  priority : ℕ
  deriving DecidableEq

/-- Read how the charger shares its supply. -/
def asyncGetLoadBalancing : Client LoadBalancingConfig := do
  let enabled ← readValue .loadBalancingEnabled decodeUInt
  let gridCurrentLimitA ← readValue .gridCurrentLimit decodeFloat
  let safeCurrentOffsetA ← readValue .safeCurrentOffset decodeFloat
  let reduceCurrentOffsetA ← readValue .reduceCurrentOffset decodeFloat
  let maxGridPowerW ← readValue .maxGridPower decodeFloat
  let source ← readValue .loadBalancingSource decodeUInt
  let priority ← readValue .loadBalancingPriority decodeUInt
  return { enabled := decide (enabled ≠ 0), gridCurrentLimitA, safeCurrentOffsetA,
           reduceCurrentOffsetA, maxGridPowerW, source, priority }

/-- Read the OCPP central system settings. -/
def asyncGetOcppConfig : Client OcppConfig := do
  let host ← asyncReadString Register.ocppHost.id
  let port ← readValue .ocppPort decodeUInt
  let path ← asyncReadString Register.ocppPath.id
  let chargePointId ← asyncReadString Register.ocppChargePointId.id
  return { host, port, path, chargePointId }

/-! ### Setters -/

/-- The methods that change the configuration, without their `commit` argument. -/
inductive Setter
  | wifi (ssid password : String)
  | ocppConfig (config : OcppConfig)
  | timezone (hours minutes : ℤ)
  | syncClock (now : DateTime) (moment : Option DateTime)
  | randomDelay (seconds : ℤ)
  | internetConnectivity (enabled : Bool)
  | currentLimit (amps maxAmps : PyFloat) (allowWhileCharging : Bool)

namespace Setter

def program : Setter → Bool → Client Unit
  | .wifi ssid password, commit => asyncSetWifi ssid password commit
  | .ocppConfig config, commit => asyncSetOcppConfig config commit
  | .timezone hours minutes, commit => asyncSetTimezone hours minutes commit
  | .syncClock now moment, commit => asyncSyncClock now moment commit
  | .randomDelay seconds, commit => asyncSetRandomDelay seconds commit
  | .internetConnectivity enabled, commit => asyncSetInternetConnectivity enabled commit
  | .currentLimit amps maxAmps allow, commit => asyncSetCurrentLimit amps maxAmps commit allow

/-- The frames that carry the setting. -/
def frames : Setter → Except Exc (List Frame)
  | .wifi ssid password => wifiFrames ssid password
  | .ocppConfig config => ocppFrames config
  | .timezone hours minutes => timezoneFrames hours minutes
  | .syncClock now moment => clockFrames (moment.getD now)
  | .randomDelay seconds => randomDelayFrames seconds
  | .internetConnectivity enabled => internetConnectivityFrames enabled
  | .currentLimit amps _ _ => (fun frame => [frame]) <$> buildWriteFloat .currentLimit amps

end Setter

/-! ### What the setters write -/

/-- The frames are writes to the registers `rs`. -/
def WritesTo (rs : List Register) (frames : List Frame) : Prop :=
  ∀ f ∈ frames, f.flag ≠ Operation.read.value ∧ ∃ r ∈ rs, f.register = r.value

namespace WritesTo

variable {rs : List Register} {fs gs : List Frame} {f : Frame}

lemma cons (hf : WritesTo rs [f]) (hg : WritesTo rs gs) : WritesTo rs (f :: gs) :=
  List.forall_mem_cons.2 ⟨hf f (by simp), hg⟩

lemma append (hf : WritesTo rs fs) (hg : WritesTo rs gs) : WritesTo rs (fs ++ gs) := fun f h =>
  (List.mem_append.1 h).elim (hf f) (hg f)

lemma buildStringWrite {r : Register} (hr : r ∈ rs) {value : String} {fieldBytes : ℤ}
    (h : buildStringWrite r value fieldBytes = .ok fs) : WritesTo rs fs := fun f hf =>
  have hf := mem_buildStringWrite h f hf
  ⟨hf.2, r, hr, hf.1⟩

lemma buildWriteUInt {r : Register} (hr : r ∈ rs) {value : ℤ}
    (h : buildWriteUInt r value = .ok f) : WritesTo rs [f] := by
  intro g hg
  obtain rfl : g = f := by simpa using hg
  refine ⟨?_, r, hr, register_buildWriteUInt h⟩
  rw [flag_buildWriteUInt h]
  decide

end WritesTo

/-- The registers of a setting. -/
def Setter.registers : Setter → List Register
  | wifi .. => [.wifiSsid, .wifiPassword]
  | ocppConfig _ => [.ocppHost, .ocppPort, .ocppPath, .ocppChargePointId]
  | timezone .. => [.timezone]
  | syncClock .. => [.clockTime, .clockDate]
  | randomDelay _ => [.randomDelay]
  | internetConnectivity _ => [.internetConnectivity]
  | currentLimit .. => [.currentLimit]

section

variable {frames : List Frame}

private lemma writes_wifiFrames {ssid password : String}
    (h : wifiFrames ssid password = .ok frames) :
    WritesTo (Setter.wifi ssid password).registers frames := by
  simp only [wifiFrames, bind_eq_ok] at h
  obtain ⟨-, -, -, -, ssidFrames, hssid, passwordFrames, hpassword, h⟩ := h
  cases h
  exact .append (.buildStringWrite (.head _) hssid) (.buildStringWrite (.tail _ (.head _)) hpassword)

private lemma writes_ocppFrames {config : OcppConfig} (h : ocppFrames config = .ok frames) :
    WritesTo (Setter.ocppConfig config).registers frames := by
  simp only [ocppFrames] at h
  split_ifs at h
  all_goals try cases h
  simp only [bind_eq_ok] at h
  obtain ⟨hostFrames, hhost, portFrame, hport, pathFrames, hpath, idFrames, hid, h⟩ := h
  cases h
  refine .append (.append ?_ (.cons ?_ ?_)) ?_
  · exact .buildStringWrite (by simp [Setter.registers]) hhost
  · exact .buildWriteUInt (by simp [Setter.registers]) hport
  · exact .buildStringWrite (by simp [Setter.registers]) hpath
  · exact .buildStringWrite (by simp [Setter.registers]) hid

private lemma writes_timezoneFrames {hours minutes : ℤ}
    (h : timezoneFrames hours minutes = .ok frames) :
    WritesTo (Setter.timezone hours minutes).registers frames := by
  simp only [timezoneFrames] at h
  split_ifs at h
  · rw [bind_eq_ok] at h
    obtain ⟨frame, hframe, h⟩ := h
    cases h
    unfold buildTimezone at hframe
    split_ifs at hframe
    exact .buildWriteUInt (.head _) hframe
  · cases h

private lemma writes_clockFrames {now : DateTime} {moment : Option DateTime}
    (h : clockFrames (moment.getD now) = .ok frames) :
    WritesTo (Setter.syncClock now moment).registers frames := by
  simp only [clockFrames, bind_eq_ok] at h
  obtain ⟨time, htime, date, hdate, h⟩ := h
  cases h
  unfold buildClockTime at htime
  unfold buildClockDate at hdate
  split_ifs at htime hdate
  exact .cons (.buildWriteUInt (.head _) htime) (.buildWriteUInt (.tail _ (.head _)) hdate)

private lemma writes_randomDelayFrames {seconds : ℤ} (h : randomDelayFrames seconds = .ok frames) :
    WritesTo (Setter.randomDelay seconds).registers frames := by
  simp only [randomDelayFrames] at h
  split_ifs at h
  · rw [bind_eq_ok] at h
    obtain ⟨frame, hframe, h⟩ := h
    cases h
    exact .buildWriteUInt (.head _) hframe
  · cases h

private lemma writes_internetConnectivityFrames {enabled : Bool}
    (h : internetConnectivityFrames enabled = .ok frames) :
    WritesTo (Setter.internetConnectivity enabled).registers frames := by
  simp only [internetConnectivityFrames, bind_eq_ok] at h
  obtain ⟨frame, hframe, h⟩ := h
  cases h
  exact .buildWriteUInt (.head _) hframe

/-- The frames of a setting go to its registers, and none of them is a read. -/
lemma Setter.writes {setter : Setter} (h : setter.frames = .ok frames) :
    WritesTo setter.registers frames := by
  cases setter with
  | wifi ssid password => exact writes_wifiFrames h
  | ocppConfig config => exact writes_ocppFrames h
  | timezone hours minutes => exact writes_timezoneFrames h
  | syncClock now moment => exact writes_clockFrames h
  | randomDelay seconds => exact writes_randomDelayFrames h
  | internetConnectivity enabled => exact writes_internetConnectivityFrames h
  | currentLimit amps maxAmps allow =>
    cases hframe : buildWriteFloat .currentLimit amps with
    | ok frame =>
      rw [Setter.frames, hframe] at h
      cases h
      intro f hf
      obtain rfl : f = frame := by simpa using hf
      refine ⟨?_, .currentLimit, .head _, register_buildWriteFloat hframe⟩
      rw [flag_buildWriteFloat hframe]
      decide
    | error x =>
      rw [Setter.frames, hframe] at h
      cases h

end

/-! ### Methods -/

/-- The methods of the client that talk to the charger, with their arguments. -/
inductive Method
  | readRaw (register parameter : ℤ)
  | readString (register : ℤ)
  | getState
  | getStateValue
  | getPower
  | getVoltage
  | getCurrent
  | getCurrentLimit
  | getAlarmDefs
  | getAlarms
  | getStatus
  | getPassword
  | control (command : Command)
  | getWifiSsid
  | getWifiPassword
  | getLoadBalancing
  | getOcppConfig
  | getTimezone
  | getRandomDelay
  | set (setter : Setter) (commit : Bool)
  | commit
  | getHistory (count : ℤ)

namespace Method

abbrev Result : Method → Type
  | readRaw .. => Bytes
  | readString _ | getWifiSsid | getWifiPassword => String
  | getState => ChargerState
  | getStateValue | getRandomDelay => ℕ
  | getPower | getVoltage | getCurrent | getCurrentLimit => PyFloat
  | getAlarmDefs => List AlarmDef
  | getAlarms => List String
  | getStatus => ChargerStatus
  | getPassword => ℤ
  | getLoadBalancing => LoadBalancingConfig
  | getOcppConfig => OcppConfig
  | getTimezone => ℕ × ℕ
  | getHistory _ => List ChargingSession
  | control _ | set .. | commit => Unit

/-- A reboot is a commit, and start and stop differ in their command only. -/
def program : (m : Method) → Client m.Result
  | readRaw register parameter => asyncReadRaw register parameter
  | readString register => asyncReadString register
  | getState => asyncGetState
  | getStateValue => asyncGetStateValue
  | getPower => asyncGetPower
  | getVoltage => asyncGetVoltage
  | getCurrent => asyncGetCurrent
  | getCurrentLimit => asyncGetCurrentLimit
  | getAlarmDefs => asyncGetAlarmDefs
  | getAlarms => asyncGetAlarms
  | getStatus => asyncGetStatus
  | getPassword => asyncGetPassword
  | control command => asyncSendControl command
  | getWifiSsid => asyncGetWifiSsid
  | getWifiPassword => asyncGetWifiPassword
  | getLoadBalancing => asyncGetLoadBalancing
  | getOcppConfig => asyncGetOcppConfig
  | getTimezone => asyncGetTimezone
  | getRandomDelay => asyncGetRandomDelay
  | set setter applied => setter.program applied
  | commit => asyncCommit
  | getHistory count => asyncGetHistory count

end Method

end SpinevBle
