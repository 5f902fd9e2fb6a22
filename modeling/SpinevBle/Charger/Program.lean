import SpinevBle.Lib.Interaction
import SpinevBle.Protocol.Float
import SpinevBle.Protocol.Records

/-!
# The client's methods as programs

Every method of `SpinEvCharger` that talks to the charger is a program over three operations,
each of which checks the connection and then holds the client's lock throughout: a request that
waits for its reply, a list of frames written one after another, and the history read. Reading
and caching the configured password touch the client object only.

What an operation does while it holds the lock is the business of `Charger.Machine`.
-/

namespace SpinevBle

open Interaction

/-! ### Operations -/

/-- What a call does under one acquisition of the lock. -/
inductive Job
  | request (frame : Frame) (register : UInt8)
  | writeFrames (frames : List Frame)
  | history (count : ℤ)

/-- What the operation returns. -/
abbrev Job.Value : Job → Type
  | .request _ _ => Bytes
  | .writeFrames _ => Unit
  | .history _ => List Bytes

inductive Op
  | locked (j : Job)
  | getPassword
  | setPassword (password : ℤ)

abbrev Op.Result : Op → Type
  | .locked j => Except Exc j.Value
  | .getPassword => Option ℤ
  | .setPassword _ => Unit

abbrev Program := Prog Op Op.Result

/-- Programs that may raise. -/
abbrev Client := ExceptT Exc Program

def locked (j : Job) : Client j.Value := ExceptT.mk (.op (.locked j) .pure)

def request (frame : Frame) (register : UInt8) : Client Bytes := locked (.request frame register)

def writeFrames (frames : List Frame) : Client Unit := locked (.writeFrames frames)

def getPassword : Client (Option ℤ) := ExceptT.mk (.op .getPassword fun p => .pure (.ok p))

def setPassword (password : ℤ) : Client Unit :=
  ExceptT.mk (.op (.setPassword password) fun _ => .pure (.ok ()))

/-- Code between two operations that may raise. -/
def raising {α : Type} (x : Except Exc α) : Client α := ExceptT.mk (.pure x)

lemma raising_bind_raising {α γ : Type} (x : Except Exc α) (g : α → Except Exc γ) :
    (raising x >>= fun a => raising (g a)) = raising (x >>= g) := by
  cases x <;> rfl

/-! ### Reads -/

/-- Take the four value bytes out of a reply. -/
def valueBytes (payload : Bytes) (label : String) : Except Exc Bytes :=
  let value := (payload.drop 4).take 4
  if value.length ≠ 4 then
    .error (.spinEv .protocol
      s!"short reply for {label}: {value.length} value bytes, expected 4")
  else .ok value

/-- Read a register and return its four raw value bytes. -/
def asyncReadRaw (register : ℤ) (parameter : ℤ := 0) : Client Bytes := do
  let frame ← raising (buildRead register parameter)
  let payload ← request frame frame.register
  raising (valueBytes payload s!"register {hex frame.register}")

def asyncGetStateValue : Client ℕ := do
  let raw ← asyncReadRaw Register.state.id
  raising (decodeUInt raw)

/-- Read the charger's own Bluetooth password. -/
def asyncGetPassword : Client ℤ := do
  let raw ← asyncReadRaw Register.password.id
  let value ← raising (decodeUInt raw)
  return (value &&& 0xFFFFFF : ℕ)

/-- The configured password, read from the charger and remembered if there is none. -/
def asyncRequirePassword : Client ℤ := do
  match ← getPassword with
  | some password => return password
  | none =>
    let password ← asyncGetPassword
    setPassword password
    return password

/-! ### Commands -/

/-- Send a control command and confirm that the charger acted on it. -/
def asyncSendControl (command : Command) : Client Unit := do
  let password ← asyncRequirePassword
  let frame ← raising (buildControl command password)
  let reply ← request frame Register.control.value
  raising (checkControlReply frame reply)

def asyncStartCharging : Client Unit := asyncSendControl .start

def asyncStopCharging : Client Unit := asyncSendControl .stop

/-- Apply pending configuration, which restarts the charger. -/
def asyncCommit : Client Unit := do
  let frame ← raising buildCommit
  writeFrames [frame]

def commitIf (commit : Bool) : Client Unit := if commit then asyncCommit else return ()

/-- The charger has one frame for both, so this is a commit. -/
def asyncReboot : Client Unit := asyncCommit

/-- Set the charging current limit, in amps. Unless told otherwise, the state is read first and
the change refused while a session is open. -/
def asyncSetCurrentLimit (amps : PyFloat) (maxAmps : PyFloat := defaultMaxCurrentA)
    (commit : Bool := false) (allowWhileCharging : Bool := false) : Client Unit := do
  if ¬ (minCurrentA.le amps ∧ amps.le maxAmps) then
    throw (.spinEv .value <|
      s!"current limit {amps.text} A is out of range {minCurrentA.text} to {maxAmps.text} A")
  if ¬ allowWhileCharging then
    let state ← asyncGetStateValue
    if state ∈ sessionOpenStates then
      throw (.spinEv .busy <|
        "the charger will not change its current limit during a " ++
        "session. Stop charging first, or pass " ++
        "allow_while_charging=True to write it anyway.")
  let frame ← raising (buildWriteFloat .currentLimit amps)
  let _ ← request frame Register.currentLimit.value
  commitIf commit

/-! ### Settings -/

def checkWifiField (name value : String) : Except Exc Unit :=
  if value.length > maxWifiFieldLen then
    .error (.spinEv .value s!"wifi {name} is too long, max {maxWifiFieldLen} characters")
  else if '"' ∈ value.toList then
    .error (.spinEv .value s!"wifi {name} must not contain a double quote")
  else .ok ()

/-- The frames of `async_set_wifi`, or the error it raises before it sends any. -/
def wifiFrames (ssid password : String) : Except Exc (List Frame) := do
  checkWifiField "ssid" ssid
  checkWifiField "password" password
  let ssidFrames ← buildStringWrite .wifiSsid ssid wifiFieldBytes
  let passwordFrames ← buildStringWrite .wifiPassword password wifiFieldBytes
  return ssidFrames ++ passwordFrames

/-- The charger's OCPP central system settings. -/
structure OcppConfig where
  host : String
  port : ℤ
  path : String
  chargePointId : String
  deriving DecidableEq

/-- The frames of `async_set_ocpp_config`. -/
def ocppFrames (config : OcppConfig) : Except Exc (List Frame) := do
  if config.host = "" then
    throw (.spinEv .value "ocpp host must not be empty")
  if ¬ (1 ≤ config.port ∧ config.port ≤ maxPort) then
    throw (.spinEv .value s!"ocpp port {config.port} is out of range 1 to {maxPort}")
  let hostFrames ← buildStringWrite .ocppHost config.host ocppTextFieldBytes
  let portFrame ← buildWriteUInt .ocppPort config.port
  let pathFrames ← buildStringWrite .ocppPath config.path ocppTextFieldBytes
  let idFrames ← buildStringWrite .ocppChargePointId config.chargePointId ocppIdFieldBytes
  return hostFrames ++ portFrame :: pathFrames ++ idFrames

/-- The frames of `async_set_timezone`. -/
def timezoneFrames (hours minutes : ℤ) : Except Exc (List Frame) := do
  if ¬ (0 ≤ hours ∧ hours < 24 ∧ 0 ≤ minutes ∧ minutes < 60) then
    throw (.spinEv .value "timezone offset out of range")
  return [← buildTimezone hours minutes]

/-- The frames of `async_sync_clock`. -/
def clockFrames (moment : DateTime) : Except Exc (List Frame) := do
  return [← buildClockTime moment.hour moment.minute moment.second,
    ← buildClockDate moment.year moment.month moment.day]

/-- The frames of `async_set_random_delay`. -/
def randomDelayFrames (seconds : ℤ) : Except Exc (List Frame) := do
  if ¬ (0 ≤ seconds ∧ seconds ≤ maxRandomDelayS) then
    throw (.spinEv .value s!"delay {seconds} s is out of range 0 to {maxRandomDelayS}")
  return [← buildWriteUInt .randomDelay seconds]

/-- The frames of `async_set_internet_connectivity`. -/
def internetConnectivityFrames (enabled : Bool) : Except Exc (List Frame) := do
  return [← buildWriteUInt .internetConnectivity (if enabled then 1 else 0)]

/-- What every setter does with its frames: write them under one lock, then commit if asked. -/
def writeSetting (frames : Except Exc (List Frame)) (commit : Bool) : Client Unit := do
  let frames ← raising frames
  writeFrames frames
  commitIf commit

def asyncSetWifi (ssid password : String) (commit : Bool := true) : Client Unit :=
  writeSetting (wifiFrames ssid password) commit

def asyncSetOcppConfig (config : OcppConfig) (commit : Bool := true) : Client Unit :=
  writeSetting (ocppFrames config) commit

def asyncSetTimezone (hours : ℤ) (minutes : ℤ := 0) (commit : Bool := true) : Client Unit :=
  writeSetting (timezoneFrames hours minutes) commit

/-- `now` is what `datetime.now()` gives when no moment is passed. -/
def asyncSyncClock (now : DateTime) (moment : Option DateTime := none) (commit : Bool := true) :
    Client Unit :=
  writeSetting (clockFrames (moment.getD now)) commit

def asyncSetRandomDelay (seconds : ℤ) (commit : Bool := true) : Client Unit :=
  writeSetting (randomDelayFrames seconds) commit

def asyncSetInternetConnectivity (enabled : Bool) (commit : Bool := true) : Client Unit :=
  writeSetting (internetConnectivityFrames enabled) commit

/-! ### History -/

/-- Fetch recent charging sessions. -/
def asyncGetHistory (count : ℤ := defaultHistoryCount) : Client (List ChargingSession) := do
  let records ← locked (.history count)
  return distinctSessions records

end SpinevBle
