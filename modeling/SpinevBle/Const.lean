import SpinevBle.Exceptions

/-!
# Protocol constants
-/

namespace SpinevBle

/-- Every protocol frame starts with these two bytes. -/
def frameHeader : Bytes := [0x10, 0xAC]

/-- Length of a standard request or reply frame. -/
def frameLength : ℕ := 8

/-- Value of the flag byte. -/
inductive Operation
  | read
  | write
  | bulk
  deriving DecidableEq

def Operation.value : Operation → UInt8
  | .read => 0x00
  | .write => 0x01
  | .bulk => 0x10

/-- Register ids the library knows how to use. -/
inductive Register
  | voltage
  | current
  | password
  | sessionEnergy
  | alarms
  | commit
  | control
  | clockTime
  | clockDate
  | currentLimit
  | firmwareVersion
  | internetConnectivity
  | sessionSeconds
  | ocppPort
  | ocppPath
  | wifiPassword
  | ocppChargePointId
  | wifiSsid
  | ocppHost
  | lifetimeEnergy
  | state
  | historySessions
  | lifetimeSeconds
  | historyEvents
  | timezone
  | power
  | gridCurrentLimit
  | loadBalancingEnabled
  | safeCurrentOffset
  | reduceCurrentOffset
  | loadBalancingSource
  | randomDelay
  | maxGridPower
  | loadBalancingPriority
  deriving DecidableEq

def Register.value : Register → UInt8
  | .voltage => 0x0A
  | .current => 0x14
  | .password => 0x32
  | .sessionEnergy => 0x35
  | .alarms => 0x39
  | .commit => 0x3B
  | .control => 0x3C
  | .clockTime => 0x3F
  | .clockDate => 0x40
  | .currentLimit => 0x4F
  | .firmwareVersion => 0x52
  | .internetConnectivity => 0x56
  | .sessionSeconds => 0x59
  | .ocppPort => 0x5E
  | .ocppPath => 0x60
  | .wifiPassword => 0x61
  | .ocppChargePointId => 0x62
  | .wifiSsid => 0x63
  | .ocppHost => 0x64
  | .lifetimeEnergy => 0x65
  | .state => 0x67
  | .historySessions => 0x68
  | .lifetimeSeconds => 0x6A
  | .historyEvents => 0x70
  | .timezone => 0x78
  | .power => 0x84
  | .gridCurrentLimit => 0x99
  | .loadBalancingEnabled => 0x9A
  | .safeCurrentOffset => 0x9C
  | .reduceCurrentOffset => 0x9D
  | .loadBalancingSource => 0xBD
  | .randomDelay => 0xC2
  | .maxGridPower => 0xD1
  | .loadBalancingPriority => 0xD2

/-- Flag byte that selects the second alarm bank when reading the alarm register. -/
def alarmBank2Flag : UInt8 := 0x10

/-- The two alarm words the charger keeps. -/
def alarmBanks : List ℕ := [1, 2]

/-- How serious the charger considers an alarm. -/
inductive AlarmSeverity
  | critical
  | major
  | minor
  | warning
  deriving DecidableEq

/-- Values reported by the state register. -/
inductive ChargerState
  | available
  | idle
  | starting
  | charging
  | fault
  | finishing
  | evseSuspended
  | evSuspended
  | booting
  | unavailable
  deriving DecidableEq

def ChargerState.value : ChargerState → ℕ
  | .available => 1
  | .idle => 2
  | .starting => 3
  | .charging => 4
  | .fault => 5
  | .finishing => 6
  | .evseSuspended => 7
  | .evSuspended => 8
  | .booting => 9
  | .unavailable => 10

/-- `ChargerState(value)`, where `none` is its `ValueError`. -/
def ChargerState.ofValue? (value : ℕ) : Option ChargerState :=
  [available, idle, starting, charging, fault, finishing, evseSuspended, evSuspended, booting,
    unavailable].find? fun state => state.value = value

/-- States in which a charging session is open, whether or not power is flowing. -/
def sessionOpenStates : List ℕ :=
  [ChargerState.starting.value, ChargerState.charging.value, ChargerState.evseSuspended.value,
    ChargerState.evSuspended.value]

/-- Command byte written to the control register. -/
inductive Command
  | start
  | stop
  deriving DecidableEq

def Command.value : Command → ℕ
  | .start => 0x01
  | .stop => 0x10

def maxWifiFieldLen : ℕ := 32
def maxPort : ℤ := 65535
def wifiFieldBytes : ℤ := 32
def ocppIdFieldBytes : ℤ := 32
def ocppTextFieldBytes : ℤ := 64
def maxRandomDelayS : ℤ := 1800

/-- Value written to the commit register to apply pending configuration. -/
def commitValue : ℤ := 0x01000000

/-- Value the charger echoes back when it refuses a control command. -/
def controlRejected : ℤ := 0xFFFFFFFF

/-- kWh per count: energy registers are in hundredths of a kWh. This is the double that is nearest
to 0.01. -/
def energyScale : ℚ := 5764607523034235 / 2 ^ 59

def sessionRecordLength : ℕ := 26
def eventRecordLength : ℕ := 20
def recordStartMarker : UInt8 := 0x7C
def recordEndMarker : UInt8 := 0x25

/-- History record years are stored as an offset from this. -/
def yearEpoch : ℕ := 1900

/-- Seconds of silence that end a bulk read, which has no end marker. -/
def bulkIdleTimeout : ℚ := 2 / 5

def defaultHistoryCount : ℤ := 40

/-- Registers whose reads stream records instead of answering with one frame. -/
def bulkRegisters : List UInt8 := [Register.historySessions.value, Register.historyEvents.value]

end SpinevBle
