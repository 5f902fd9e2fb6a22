import Mathlib.Data.List.AList
import Mathlib.Data.List.Sort
import Mathlib.Data.Nat.Bitwise
import SpinevBle.Protocol.Frame

/-!
# Alarms

The charger keeps two alarm words, one bit for each alarm. A word does not name its own bank.
-/

namespace SpinevBle

/-- One entry in the charger's alarm table: a bit of an alarm word, and how the charger presents
the condition. -/
structure AlarmDef where
  bank : ℕ
  bit : ℕ
  name : String
  code : Option String := none
  severity : Option AlarmSeverity := none
  constant : Option String := none
  deriving DecidableEq

/-- Every alarm the charger can report, both banks. -/
def alarms : List AlarmDef :=
  [⟨1, 0, "Mains Fail", none, none, "MAINS_FAIL"⟩,
    ⟨1, 1, "Mains Low", none, none, "MAINS_LOW"⟩,
    ⟨1, 2, "Mains High", none, none, "MAINS_HIGH"⟩,
    ⟨1, 3, "Mains Output Current High", none, none, "MAINS_OP_CURRENT_HIGH"⟩,
    ⟨1, 4, "Earth Wire Open", "301", some .major, "EARTH_DETECT"⟩,
    ⟨1, 5, "DC Fault/Internal RCD", "103", some .critical, "EARTH_LEAKAGE"⟩,
    ⟨1, 6, "Vehicle CP Fault", "201", some .major, "PWM_FAULT"⟩,
    ⟨1, 7, "EM Comm Fault", "401", none, "EM_COMM_FAULT"⟩,
    ⟨1, 8, "RFID Fault", "403", some .warning, "RFID_COMM_FAULT"⟩,
    ⟨1, 9, "WiFi Fault", "402", some .warning, "WIFI_BLE_COMM_FAULT"⟩,
    ⟨1, 10, "LCD Board Comm Fault", none, none, none⟩,
    ⟨1, 11, "LED Board Comm Fault", none, none, none⟩,
    ⟨1, 12, "NE High Voltage", "301", some .major, "NE_VOLT_HIGH"⟩,
    ⟨1, 13, "Output Current Very High", "302", none, "OUTPUT_CURRENT_VERY_HIGH"⟩,
    ⟨1, 14, "Emergency Pressed", "101", some .critical, "EMERGENCY_DETECT"⟩,
    ⟨1, 15, "SPD Fail", none, none, none⟩,
    ⟨1, 16, "Mains Very High", "303", none, "MAINS_VERY_HIGH"⟩,
    ⟨1, 17, "High Temperature", "104", some .major, "TEMPERATURE_HIGH"⟩,
    ⟨2, 0, "L1 Phase Failure", "303", some .major, "MAINS_RPH_FAIL"⟩,
    ⟨2, 1, "L1 Voltage Low", "303", some .major, "MAINS_RPH_LOW"⟩,
    ⟨2, 2, "L1 Voltage High", "303", some .major, "MAINS_RPH_HIGH"⟩,
    ⟨2, 3, "L2 Phase Failure", "303", some .major, "MAINS_YPH_FAIL"⟩,
    ⟨2, 4, "L2 Voltage Low", "303", some .major, "MAINS_YPH_LOW"⟩,
    ⟨2, 5, "L2 Voltage High", "303", some .major, "MAINS_YPH_HIGH"⟩,
    ⟨2, 6, "L3 Phase Failure", "303", some .major, "MAINS_BPH_FAIL"⟩,
    ⟨2, 7, "L3 Voltage Low", "303", some .major, "MAINS_BPH_LOW"⟩,
    ⟨2, 8, "L3 Voltage High", "303", some .major, "MAINS_BPH_HIGH"⟩,
    ⟨2, 9, "L1 Overcurrent", "302", some .critical, "OP_CURRENT_R_HIGH"⟩,
    ⟨2, 10, "L2 Overcurrent", "302", some .critical, "OP_CURRENT_Y_HIGH"⟩,
    ⟨2, 11, "L3 Overcurrent", "302", some .critical, "OP_CURRENT_B_HIGH"⟩,
    ⟨2, 12, "Energy Meter 1 Fault", "401", some .warning, "EM_IC_1"⟩,
    ⟨2, 13, "Energy Meter 2 Fault", "401", some .warning, "EM_IC_2"⟩,
    ⟨2, 14, "Lora Fault", none, none, none⟩,
    ⟨2, 15, "Unexpected CP Voltage", "202", some .major, "PWM_GUN_2"⟩,
    ⟨2, 16, "Media Failure", "101", some .major, "SD_CARD_FAULT"⟩,
    ⟨2, 17, "Encryption IC Fault", none, none, none⟩,
    ⟨2, 18, "EEPROM Fault", "101", some .minor, "EXT_EEP_COMM_FAULT"⟩,
    ⟨2, 19, "Ext Energy Meter Fault", "101", some .minor, "EXT_RS485_COMM_FAULT"⟩,
    ⟨2, 20, "Relay Stuck", "102", some .critical, "WELD_DETECTION_FAULT"⟩,
    ⟨2, 21, "Servo Lock Fail", none, none, none⟩,
    ⟨2, 22, "Grid Max Current Reached", none, none, none⟩,
    ⟨2, 23, "Charger Min Current Reached", none, none, none⟩,
    ⟨2, 24, "GSM Fault", "402", some .warning, "GSM_COMM_FAULT"⟩,
    ⟨2, 25, "Charger Zero Current", none, none, none⟩]

/-- The alarms of one bank, by bit. -/
def alarmDefsByBank (bank : ℕ) : List AlarmDef :=
  (alarms.filter fun a => a.bank = bank).insertionSort fun a b => a.bit ≤ b.bit

/-- Reject an alarm bank the charger does not have. -/
def checkBank (bank : ℕ) : Except Exc Unit :=
  if bank ∈ alarmBanks then .ok ()
  else .error (.spinEv .protocol s!"alarm bank must be 1 or 2, not {bank}")

/-- The alarms active in one alarm word. -/
def decodeAlarmDefs (word : ℕ) (bank : ℕ := 1) : Except Exc (List AlarmDef) := do
  checkBank bank
  return (alarmDefsByBank bank).filter fun a => word &&& (1 <<< a.bit) ≠ 0

/-- Build a read of one alarm word. Bank 2 is selected by the flag. -/
def buildAlarmRead (bank : ℕ := 1) : Except Exc Frame := do
  checkBank bank
  if bank = 1 then buildRead Register.alarms.id
  else buildRead Register.alarms.id 0 alarmBank2Flag

/-- A read without a parameter always fits. -/
lemma buildRead_zero (register : Register) (flag : UInt8) :
    buildRead register.id 0 flag = .ok ⟨register.value, flag, Word.ofNat 0⟩ := by
  have hraw : packUInt 0 = .ok (Word.ofNat 0) := if_pos (by decide)
  rw [buildRead_id, buildReadOf, hraw, bind_ok, pure_eq_ok]

/-- The frame that reads a bank. -/
def alarmFrame (flag : UInt8) : Frame := ⟨Register.alarms.value, flag, Word.ofNat 0⟩

lemma buildAlarmRead_one : buildAlarmRead 1 = .ok (alarmFrame Operation.read.value) := by
  have hbank : checkBank 1 = .ok () := if_pos (by decide)
  rw [buildAlarmRead, hbank, bind_ok, if_pos rfl, buildRead_zero, alarmFrame]

lemma buildAlarmRead_two : buildAlarmRead 2 = .ok (alarmFrame alarmBank2Flag) := by
  have hbank : checkBank 2 = .ok () := if_pos (by decide)
  rw [buildAlarmRead, hbank, bind_ok, if_neg (by decide), buildRead_zero, alarmFrame]

lemma buildAlarmRead_cases {bank : ℕ} {frame : Frame} (h : buildAlarmRead bank = .ok frame) :
    frame = alarmFrame Operation.read.value ∨ frame = alarmFrame alarmBank2Flag := by
  have hbank : bank ∈ alarmBanks := by
    by_contra hb
    rw [buildAlarmRead, checkBank, if_neg hb] at h
    cases h
  simp only [alarmBanks, List.mem_cons, List.not_mem_nil, or_false] at hbank
  rcases hbank with rfl | rfl
  · exact .inl (Except.ok.inj (h.symm.trans buildAlarmRead_one))
  · exact .inr (Except.ok.inj (h.symm.trans buildAlarmRead_two))

lemma register_buildAlarmRead {bank : ℕ} {frame : Frame} (h : buildAlarmRead bank = .ok frame) :
    frame.register = Register.alarms.value := by
  rcases buildAlarmRead_cases h with rfl | rfl <;> rfl

/-! ### The index -/

/-- The alarms by bank and bit. -/
abbrev AlarmIndex := AList fun _ : ℕ => AList fun _ : ℕ => AlarmDef

/-- `index.setdefault(alarm.bank, {})[alarm.bit] = alarm`. -/
def indexAlarm (index : AlarmIndex) (alarm : AlarmDef) : AlarmIndex :=
  index.insert alarm.bank (((index.lookup alarm.bank).getD ∅).insert alarm.bit alarm)

/-- `_index_alarms`. A bit that came twice would keep the later alarm only. -/
def indexAlarms : AlarmIndex := alarms.foldl indexAlarm ∅

/-- `decode_alarm_defs`, which goes through the index. -/
def indexedAlarmDefs (word bank : ℕ) : Except Exc (List AlarmDef) := do
  checkBank bank
  match indexAlarms.lookup bank with
  | none => throw (.builtin .other s!"{bank}")
  | some defs =>
    return (defs.keys.insertionSort (· ≤ ·)).filterMap fun bit =>
      if word &&& (1 <<< bit) ≠ 0 then defs.lookup bit else none

/-- The index has every alarm of a bank, under its bit. -/
private lemma lookup_indexAlarms {bank : ℕ} (h : bank ∈ alarmBanks) :
    ∃ defs, indexAlarms.lookup bank = some defs ∧
      defs.keys.insertionSort (· ≤ ·) = (alarmDefsByBank bank).map AlarmDef.bit ∧
      ∀ alarm ∈ alarmDefsByBank bank, defs.lookup alarm.bit = some alarm := by
  have hall : ∀ bank ∈ alarmBanks, ∃ defs ∈ indexAlarms.lookup bank,
      defs.keys.insertionSort (· ≤ ·) = (alarmDefsByBank bank).map AlarmDef.bit ∧
      ∀ alarm ∈ alarmDefsByBank bank, defs.lookup alarm.bit = some alarm := by decide +kernel
  exact hall bank h

/-- The table is in order, so the index gives back the alarms of a bank as they stand there. -/
lemma alarmDefsByBank_eq {bank : ℕ} (h : bank ∈ alarmBanks) :
    alarmDefsByBank bank = alarms.filter fun alarm => alarm.bank = bank := by
  have hall : ∀ bank ∈ alarmBanks, alarmDefsByBank bank =
      alarms.filter fun alarm => alarm.bank = bank := by decide
  exact hall bank h

lemma alarms_sorted : alarms.Pairwise fun a b => a.bank < b.bank ∨ a.bank = b.bank ∧ a.bit < b.bit := by
  decide

lemma checkBank_eq_ok {bank : ℕ} (h : bank ∈ alarmBanks) : checkBank bank = .ok () := if_pos h

lemma and_shiftLeft_ne_zero {word bit : ℕ} : word &&& (1 <<< bit) ≠ 0 ↔ word.testBit bit = true := by
  rw [Nat.one_shiftLeft, Nat.and_two_pow]
  cases word.testBit bit <;> simp

/-- The alarms of a bank whose bits are set, in the order of the table. -/
def activeAlarms (word bank : ℕ) : List AlarmDef :=
  alarms.filter fun alarm => alarm.bank = bank ∧ word.testBit alarm.bit = true

lemma mem_activeAlarms {word bank : ℕ} {alarm : AlarmDef} :
    alarm ∈ activeAlarms word bank ↔
      alarm ∈ alarms ∧ alarm.bank = bank ∧ word.testBit alarm.bit = true := by
  rw [activeAlarms, List.mem_filter, decide_eq_true_iff]

lemma activeAlarms_sorted (word bank : ℕ) :
    (activeAlarms word bank).Pairwise fun a b => a.bit < b.bit := by
  refine (alarms_sorted.filter _).imp_of_mem fun ha hb h => ?_
  have ha := (mem_activeAlarms.1 ha).2.1
  have hb := (mem_activeAlarms.1 hb).2.1
  omega

/-- Both banks, one after the other, are in the order of the table. -/
lemma activeAlarms_append_sorted (word word' : ℕ) :
    (activeAlarms word 1 ++ activeAlarms word' 2).Pairwise fun a b =>
      a.bank < b.bank ∨ a.bank = b.bank ∧ a.bit < b.bit := by
  refine List.pairwise_append.2 ⟨alarms_sorted.filter _, alarms_sorted.filter _, fun a ha b hb => ?_⟩
  have ha := (mem_activeAlarms.1 ha).2.1
  have hb := (mem_activeAlarms.1 hb).2.1
  omega

lemma activeAlarms_congr {word word' bank : ℕ}
    (h : ∀ alarm ∈ alarms, alarm.bank = bank → word.testBit alarm.bit = word'.testBit alarm.bit) :
    activeAlarms word bank = activeAlarms word' bank := by
  refine List.filter_congr fun alarm ha => ?_
  by_cases hb : alarm.bank = bank
  · rw [h alarm ha hb]
  · simp [hb]

lemma mem_activeAlarms_or {word word' bank : ℕ} {alarm : AlarmDef} :
    alarm ∈ activeAlarms (word ||| word') bank ↔
      alarm ∈ activeAlarms word bank ∨ alarm ∈ activeAlarms word' bank := by
  simp only [mem_activeAlarms, Nat.testBit_or, Bool.or_eq_true]
  tauto

lemma decodeAlarmDefs_eq (word : ℕ) {bank : ℕ} (h : bank ∈ alarmBanks) :
    decodeAlarmDefs word bank = .ok (activeAlarms word bank) := by
  rw [decodeAlarmDefs, checkBank_eq_ok h, bind_ok, alarmDefsByBank_eq h, List.filter_filter, pure_eq_ok,
    activeAlarms]
  simp only [and_shiftLeft_ne_zero, Bool.decide_and, Bool.decide_eq_true, Bool.and_comm]

/-- Going through the index makes no difference. -/
lemma indexedAlarmDefs_eq (word bank : ℕ) : indexedAlarmDefs word bank = decodeAlarmDefs word bank := by
  by_cases h : bank ∈ alarmBanks
  · obtain ⟨defs, hdefs, hbits, hlookup⟩ := lookup_indexAlarms h
    rw [indexedAlarmDefs, decodeAlarmDefs, checkBank_eq_ok h]
    simp only [bind_ok, hdefs, hbits, pure_eq_ok, List.filterMap_map]
    refine congrArg Except.ok ?_
    rw [← List.filterMap_eq_filter]
    refine List.filterMap_congr fun alarm ha => ?_
    simp only [Function.comp_apply, hlookup alarm ha, Option.guard]
    simp
  · rw [indexedAlarmDefs, decodeAlarmDefs, checkBank, if_neg h]
    rfl

end SpinevBle
