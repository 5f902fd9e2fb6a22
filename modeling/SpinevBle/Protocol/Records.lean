import SpinevBle.Protocol.Float

/-!
# Values and history records
-/

namespace SpinevBle

/-- Decode a 4 byte big endian unsigned integer. -/
def decodeUInt (raw : Bytes) : Except Exc ℕ :=
  if raw.length = 4 then .ok (Word.slice raw 0).toNat
  else .error (.spinEv .protocol s!"expected 4 bytes, got {raw.length}")

/-- `count * ENERGY_SCALE`, a product of doubles. -/
def scaledEnergy (count : ℕ) : ℚ := binary64 (count * energyScale)

/-- Decode an energy register into kWh. -/
def decodeEnergy (raw : Bytes) : Except Exc ℚ := do
  return scaledEnergy (← decodeUInt raw)

/-- Decode the firmware version, one decimal component for each byte. -/
def decodeFirmwareVersion (raw : Bytes) : Except Exc String :=
  if raw.length = 4 then .ok (".".intercalate (raw.map fun b => toString b.toNat))
  else .error (.spinEv .protocol s!"expected 4 bytes, got {raw.length}")

/-! ### Timestamps -/

/-- `calendar.monthrange` of the proleptic Gregorian calendar. -/
def daysInMonth (year month : ℕ) : ℕ :=
  if month = 2 then
    if year % 4 = 0 ∧ (year % 100 ≠ 0 ∨ year % 400 = 0) then 29 else 28
  else if month ∈ [4, 6, 9, 11] then 30 else 31

/-- What `datetime` accepts. -/
def ValidDateTime (year month day hour minute second : ℕ) : Prop :=
  (1 ≤ year ∧ year ≤ 9999) ∧ (1 ≤ month ∧ month ≤ 12) ∧
    (1 ≤ day ∧ day ≤ daysInMonth year month) ∧ hour < 24 ∧ minute < 60 ∧ second < 60

instance (year month day hour minute second : ℕ) :
    Decidable (ValidDateTime year month day hour minute second) :=
  inferInstanceAs (Decidable (_ ∧ _))

/-- A `datetime` of second resolution; one that the calendar does not have cannot be built. -/
structure DateTime where
  year : ℕ
  month : ℕ
  day : ℕ
  hour : ℕ
  minute : ℕ
  second : ℕ
  valid : ValidDateTime year month day hour minute second
  deriving DecidableEq

/-- `datetime(...)`, where `none` is its `ValueError`. -/
def DateTime.mk? (year month day hour minute second : ℕ) : Option DateTime :=
  if h : ValidDateTime year month day hour minute second then
    some ⟨year, month, day, hour, minute, second, h⟩
  else none

/-- Time is `HH MM SS` at `timeOffset`, date is `YY MM DD` at `dateOffset`. -/
def decodeTimestamp (data : Bytes) (timeOffset dateOffset : ℕ) : Option DateTime :=
  let at' (i : ℕ) : ℕ := (data.getD i 0).toNat
  DateTime.mk? (yearEpoch + at' dateOffset) (at' (dateOffset + 1)) (at' (dateOffset + 2))
    (at' timeOffset) (at' (timeOffset + 1)) (at' (timeOffset + 2))

/-! ### Sessions -/

/-- One record of the charger's on device history. -/
structure ChargingSession where
  start : DateTime
  stop : DateTime
  energyKwh : ℚ
  deriving DecidableEq

/-- Decode a 26 byte charging session record, `none` if it is malformed. -/
def decodeSessionRecord (data : Bytes) : Option ChargingSession :=
  if data.length ≠ sessionRecordLength ∨ data.head? ≠ some recordStartMarker ∨
      data.getLast? ≠ some recordEndMarker then none
  else do
    let start ← decodeTimestamp data 1 6
    let stop ← decodeTimestamp data 11 16
    return ⟨start, stop, scaledEnergy (Word.slice data 21).toNat⟩

/-- The sessions among the records, in order of first arrival and without repeats. -/
def distinctSessions (records : List Bytes) : List ChargingSession :=
  records.foldl (fun sessions raw =>
    match decodeSessionRecord raw with
    | none => sessions
    | some session => if session ∈ sessions then sessions else sessions ++ [session]) []

end SpinevBle
