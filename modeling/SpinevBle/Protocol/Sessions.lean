import Mathlib.Tactic.IntervalCases
import SpinevBle.Protocol.Codec

/-!
# The session record codec

A session record has its start, its end and its energy at fixed offsets. The bytes between them are
not used.
-/

namespace SpinevBle

open Rounding

/-! ### The code that may raise -/

/-- `datetime(...)`. -/
def datetime (year month day hour minute second : ℕ) : Except Exc DateTime :=
  match DateTime.mk? year month day hour minute second with
  | some moment => .ok moment
  | none => .error (.builtin .valueError "value out of range")

/-- `_decode_timestamp` with its parts cut out of the record. -/
def decodeTimestampOf (timePart datePart : Bytes) : Except Exc DateTime := do
  let year ← byteAt datePart 0
  let month ← byteAt datePart 1
  let day ← byteAt datePart 2
  let hour ← byteAt timePart 0
  let minute ← byteAt timePart 1
  let second ← byteAt timePart 2
  datetime (yearEpoch + year.toNat) month.toNat day.toNat hour.toNat minute.toNat second.toNat

/-- `data[offset:offset + n]`. -/
def cut (data : Bytes) (offset n : ℕ) : Bytes := (data.drop offset).take n

/-- The two timestamps, and `none` where `except ValueError` leaves the record. -/
def decodeSessionTimes (data : Bytes) : Except Exc (Option (DateTime × DateTime)) :=
  tryCatch (do
    let start ← decodeTimestampOf (cut data 1 3) (cut data 6 3)
    let stop ← decodeTimestampOf (cut data 11 3) (cut data 16 3)
    return some (start, stop)) fun err =>
    match err with
    | .builtin .valueError _ => return none
    | err => throw err

/-- `decode_session_record` with all that could raise in it. -/
def decodeSessionRecordOf (data : Bytes) : Except Exc (Option ChargingSession) := do
  if data.length ≠ sessionRecordLength then return none
  if (← byteAt data 0) ≠ recordStartMarker then return none
  if (← byteAt data (data.length - 1)) ≠ recordEndMarker then return none
  match ← decodeSessionTimes data with
  | none => return none
  | some (start, stop) =>
    let count ← decodeUInt (cut data 21 4)
    return some ⟨start, stop, scaledEnergy count⟩

/-! ### Nothing raises -/

section

variable {data : Bytes}

private lemma byteAt_getD {i : ℕ} (h : i < data.length) : byteAt data i = .ok (data.getD i 0) := by
  rw [byteAt_eq_ok, List.getD_eq_getElem?_getD, List.getElem?_eq_getElem h]
  rfl

private lemma byteAt_cut {offset n i : ℕ} (hi : i < n) (h : offset + n ≤ data.length) :
    byteAt (cut data offset n) i = .ok (data.getD (offset + i) 0) := by
  have hget : (cut data offset n)[i]? = data[offset + i]? := by
    rw [cut, List.getElem?_take_of_lt hi, List.getElem?_drop]
  have hlt : offset + i < data.length := by omega
  rw [byteAt_eq_ok, hget, List.getD_eq_getElem?_getD, List.getElem?_eq_getElem hlt]
  rfl

private lemma decodeTimestampOf_cut {timeOffset dateOffset : ℕ} (ht : timeOffset + 3 ≤ data.length)
    (hd : dateOffset + 3 ≤ data.length) :
    decodeTimestampOf (cut data timeOffset 3) (cut data dateOffset 3) =
      match decodeTimestamp data timeOffset dateOffset with
      | some moment => .ok moment
      | none => .error (.builtin .valueError "value out of range") := by
  simp only [decodeTimestampOf, byteAt_cut (show 0 < 3 by decide) hd,
    byteAt_cut (show 1 < 3 by decide) hd, byteAt_cut (show 2 < 3 by decide) hd,
    byteAt_cut (show 0 < 3 by decide) ht, byteAt_cut (show 1 < 3 by decide) ht,
    byteAt_cut (show 2 < 3 by decide) ht, bind_ok]
  rfl

private lemma decodeSessionTimes_eq (h : data.length = sessionRecordLength) :
    decodeSessionTimes data = .ok (do
      let start ← decodeTimestamp data 1 6
      let stop ← decodeTimestamp data 11 16
      return (start, stop)) := by
  have hlen : data.length = 26 := h
  simp only [decodeSessionTimes, decodeTimestampOf_cut (show 1 + 3 ≤ data.length by omega)
    (show 6 + 3 ≤ data.length by omega), decodeTimestampOf_cut (show 11 + 3 ≤ data.length by omega)
    (show 16 + 3 ≤ data.length by omega)]
  cases decodeTimestamp data 1 6 with
  | none => rfl
  | some start => cases decodeTimestamp data 11 16 <;> rfl

/-- Decoding a record never raises. -/
lemma decodeSessionRecordOf_eq (data : Bytes) :
    decodeSessionRecordOf data = .ok (decodeSessionRecord data) := by
  by_cases hlen : data.length = sessionRecordLength
  · have h26 : data.length = 26 := hlen
    have hne : data ≠ [] := by
      rintro rfl
      cases h26
    have hhead : data.head? = some (data.getD 0 0) := by
      cases data with
      | nil => exact absurd rfl hne
      | cons b data => rfl
    have hlast : data.getLast? = some (data.getD 25 0) := by
      rw [List.getLast?_eq_getElem?, List.getD_eq_getElem?_getD, h26,
        List.getElem?_eq_getElem (by omega)]
      rfl
    have hcut : cut data 21 4 = (Word.slice data 21).bytes := (Word.bytes_slice (by omega)).symm
    have hfirst : byteAt data 0 = .ok (data.getD 0 0) := byteAt_getD (by omega)
    have hend : byteAt data (data.length - 1) = .ok (data.getD 25 0) := by
      rw [h26]
      exact byteAt_getD (by omega)
    unfold decodeSessionRecordOf decodeSessionRecord
    rw [hfirst, hend, hhead, hlast, decodeSessionTimes_eq hlen, hcut, decodeUInt_bytes]
    simp only [hlen, ne_eq, not_true_eq_false, if_false, bind_ok, Option.some.injEq, false_or]
    by_cases hstart : data.getD 0 0 = recordStartMarker
    · by_cases hstop : data.getD 25 0 = recordEndMarker
      · rw [if_neg (not_not.2 hstart), if_neg (not_not.2 hstop)]
        simp only [hstart, hstop]
        cases decodeTimestamp data 1 6 with
        | none => rfl
        | some start => cases decodeTimestamp data 11 16 <;> rfl
      · rw [if_neg (not_not.2 hstart), if_pos hstop, if_pos (.inr hstop)]
        rfl
    · rw [if_pos hstart, if_pos (.inl hstart)]
      rfl
  · simp only [decodeSessionRecordOf, decodeSessionRecord, hlen, ne_eq, not_false_eq_true, if_true,
      true_or]
    rfl

end

/-! ### Energies -/

/-- The scale is the double that `0.01` reads as. -/
lemma energyScale_eq : energyScale = binary64 (1 / 100) := by
  have hexp : exponent (-1022) (1 / 100) = -7 :=
    exponent_eq (by norm_num) (by norm_num) (by norm_num)
  have hround : roundHalfEven (1 / 100 / 2 ^ (-7 - (52 : ℕ) : ℤ)) = 5764607523034235 := by
    refine roundHalfEven_eq (by norm_num) ?_
    norm_num [abs_lt]
  rw [binary64, rounded_eq (by norm_num), hexp, hround, energyScale]
  norm_num

/-- The scale is far from the subnormal numbers. -/
private lemma le_energyScale : (2 : ℚ) ^ (-1022 : ℤ) ≤ energyScale := by
  calc (2 : ℚ) ^ (-1022 : ℤ) ≤ 2 ^ (-7 : ℤ) := zpow_le_zpow_right₀ one_le_two (by norm_num)
    _ ≤ energyScale := by norm_num [energyScale]

/-- No two counts have the same energy, though products of doubles are rounded. -/
lemma scaledEnergy_injective {n k : ℕ} (hn : n < 2 ^ 32) (hk : k < 2 ^ 32)
    (h : scaledEnergy n = scaledEnergy k) : n = k := by
  have hlt : 2 ^ 32 < 2 ^ 52 := by norm_num
  exact rounded_mul_injective le_energyScale (hn.trans hlt) (hk.trans hlt) h

/-- An energy is off by one unit of the last place at most. -/
lemma abs_scaledEnergy_sub_le (count : ℕ) :
    |scaledEnergy count - count / 100| ≤ count / 100 / 2 ^ 52 := by
  rcases Nat.eq_zero_or_pos count with rfl | hpos
  · simp [scaledEnergy, binary64, rounded, fields, value]
  · have h1 : (1 : ℚ) ≤ count := by exact_mod_cast hpos
    have hscale : (0 : ℚ) ≤ energyScale := by norm_num [energyScale]
    have hmin : (2 : ℚ) ^ (-1022 : ℤ) ≤ count * energyScale :=
      le_energyScale.trans (le_mul_of_one_le_left hscale h1)
    obtain ⟨hlo, hhi⟩ := abs_le.1 (abs_sub_rounded_le (m := 52) hmin)
    rw [scaledEnergy, binary64, abs_le]
    generalize rounded 52 (-1022) (count * energyScale) = x at hlo hhi
    norm_num [energyScale] at hlo hhi ⊢
    constructor <;> linarith

/-- The energy that is read is not the number of hundredths. -/
example : scaledEnergy 57 ≠ 57 / 100 := by decide +kernel

/-! ### What the bytes say -/

/-- The number at an offset. -/
def numberAt (data : Bytes) (i : ℕ) : ℕ := (data.getD i 0).toNat

/-- The record says when, with the time at `timeOffset` and the date at `dateOffset`. -/
structure Says (data : Bytes) (timeOffset dateOffset : ℕ) (moment : DateTime) : Prop where
  year : moment.year = yearEpoch + numberAt data dateOffset
  month : moment.month = numberAt data (dateOffset + 1)
  day : moment.day = numberAt data (dateOffset + 2)
  hour : moment.hour = numberAt data timeOffset
  minute : moment.minute = numberAt data (timeOffset + 1)
  second : moment.second = numberAt data (timeOffset + 2)

/-- The bytes of a timestamp are a moment of the calendar. -/
def ValidTimestamp (data : Bytes) (timeOffset dateOffset : ℕ) : Prop :=
  ValidDateTime (yearEpoch + numberAt data dateOffset) (numberAt data (dateOffset + 1))
    (numberAt data (dateOffset + 2)) (numberAt data timeOffset) (numberAt data (timeOffset + 1))
    (numberAt data (timeOffset + 2))

/-- The bytes of a record that are used. -/
def usedOffsets : List ℕ := [1, 2, 3, 6, 7, 8, 11, 12, 13, 16, 17, 18, 21, 22, 23, 24]

section

variable {data data' : Bytes} {t d : ℕ} {moment : DateTime} {session session' : ChargingSession}

lemma decodeTimestamp_eq_some_iff :
    decodeTimestamp data t d = some moment ↔ Says data t d moment := by
  unfold decodeTimestamp DateTime.mk?
  constructor
  · intro h
    simp only at h
    split_ifs at h
    cases h
    exact ⟨rfl, rfl, rfl, rfl, rfl, rfl⟩
  · obtain ⟨year, month, day, hour, minute, second, hvalid⟩ := moment
    rintro ⟨rfl, rfl, rfl, rfl, rfl, rfl⟩
    exact dif_pos hvalid

lemma exists_says_iff : (∃ moment, Says data t d moment) ↔ ValidTimestamp data t d := by
  constructor
  · rintro ⟨⟨year, month, day, hour, minute, second, hvalid⟩, rfl, rfl, rfl, rfl, rfl, rfl⟩
    exact hvalid
  · intro h
    exact ⟨⟨_, _, _, _, _, _, h⟩, rfl, rfl, rfl, rfl, rfl, rfl⟩

/-- A record says one thing at most. -/
lemma Says.unique {moment' : DateTime} (h : Says data t d moment) (h' : Says data t d moment') :
    moment = moment' :=
  Option.some.inj ((decodeTimestamp_eq_some_iff.2 h).symm.trans (decodeTimestamp_eq_some_iff.2 h'))

/-- The shape of a record. -/
def IsRecord (data : Bytes) : Prop :=
  data.length = sessionRecordLength ∧ data.head? = some recordStartMarker ∧
    data.getLast? = some recordEndMarker

lemma decodeSessionRecord_eq_some_iff :
    decodeSessionRecord data = some session ↔ IsRecord data ∧ Says data 1 6 session.start ∧
      Says data 11 16 session.stop ∧
      session.energyKwh = scaledEnergy (Word.slice data 21).toNat := by
  have hshape : ¬ (data.length ≠ sessionRecordLength ∨ data.head? ≠ some recordStartMarker ∨
      data.getLast? ≠ some recordEndMarker) ↔ IsRecord data := by
    simp only [not_or, not_not, IsRecord]
  unfold decodeSessionRecord
  constructor
  · intro h
    split_ifs at h with hbad
    simp only [Option.bind_eq_bind, Option.bind_eq_some_iff, Option.pure_def, Option.some.injEq] at h
    obtain ⟨start, hstart, stop, hstop, rfl⟩ := h
    exact ⟨hshape.1 hbad, decodeTimestamp_eq_some_iff.1 hstart, decodeTimestamp_eq_some_iff.1 hstop,
      rfl⟩
  · obtain ⟨start, stop, energy⟩ := session
    rintro ⟨hrecord, hstart, hstop, rfl⟩
    rw [if_neg (hshape.2 hrecord), decodeTimestamp_eq_some_iff.2 hstart,
      decodeTimestamp_eq_some_iff.2 hstop]
    rfl

lemma exists_decodeSessionRecord_iff : (∃ session, decodeSessionRecord data = some session) ↔
    IsRecord data ∧ ValidTimestamp data 1 6 ∧ ValidTimestamp data 11 16 := by
  simp only [decodeSessionRecord_eq_some_iff, ← exists_says_iff]
  constructor
  · rintro ⟨session, hrecord, hstart, hstop, -⟩
    exact ⟨hrecord, ⟨_, hstart⟩, _, hstop⟩
  · rintro ⟨hrecord, ⟨start, hstart⟩, stop, hstop⟩
    let session : ChargingSession := ⟨start, stop, scaledEnergy (Word.slice data 21).toNat⟩
    have henergy : session.energyKwh = scaledEnergy (Word.slice data 21).toNat := rfl
    exact ⟨session, hrecord, hstart, hstop, henergy⟩

/-- Where the bytes of a timestamp agree, so does what they say. -/
private lemma Says.congr (h : Says data t d moment)
    (he : ∀ i ∈ [t, t + 1, t + 2, d, d + 1, d + 2], data.getD i 0 = data'.getD i 0) :
    Says data' t d moment := by
  have hn : ∀ i ∈ [t, t + 1, t + 2, d, d + 1, d + 2], numberAt data i = numberAt data' i :=
    fun i hi => congrArg UInt8.toNat (he i hi)
  simp only [List.forall_mem_cons, List.not_mem_nil, false_implies, implies_true, and_true] at hn
  obtain ⟨h₁, h₂, h₃, h₄, h₅, h₆⟩ := hn
  exact ⟨h₄ ▸ h.year, h₅ ▸ h.month, h₆ ▸ h.day, h₁ ▸ h.hour, h₂ ▸ h.minute, h₃ ▸ h.second⟩

/-- Records that say the same have the same bytes there. -/
private lemma Says.bytes_eq (h : Says data t d moment) (h' : Says data' t d moment) :
    ∀ i ∈ [t, t + 1, t + 2, d, d + 1, d + 2], data.getD i 0 = data'.getD i 0 := by
  simp only [List.forall_mem_cons, List.not_mem_nil, false_implies, implies_true, and_true]
  have hyear : numberAt data d = numberAt data' d :=
    Nat.add_left_cancel (h.year.symm.trans h'.year)
  exact ⟨UInt8.toNat_inj.1 (h.hour.symm.trans h'.hour),
    UInt8.toNat_inj.1 (h.minute.symm.trans h'.minute),
    UInt8.toNat_inj.1 (h.second.symm.trans h'.second), UInt8.toNat_inj.1 hyear,
    UInt8.toNat_inj.1 (h.month.symm.trans h'.month), UInt8.toNat_inj.1 (h.day.symm.trans h'.day)⟩

private lemma energy_eq_iff {w w' : Word} :
    scaledEnergy w.toNat = scaledEnergy w'.toNat ↔ w = w' := by
  constructor
  · intro h
    exact Word.toNat_injective (scaledEnergy_injective w.toNat_lt w'.toNat_lt h)
  · rintro rfl
    rfl

private lemma slice_eq_iff {offset : ℕ} : Word.slice data offset = Word.slice data' offset ↔
    ∀ i ∈ [offset, offset + 1, offset + 2, offset + 3], data.getD i 0 = data'.getD i 0 := by
  simp [Word.slice]

/-- The bytes that are used are those of the two timestamps and of the energy. -/
private lemma usedOffsets_eq : usedOffsets =
    [1, 1 + 1, 1 + 2, 6, 6 + 1, 6 + 2] ++ [11, 11 + 1, 11 + 2, 16, 16 + 1, 16 + 2] ++
      [21, 21 + 1, 21 + 2, 21 + 3] := rfl

/-- Two records are the same session if the bytes that are used are the same. -/
lemma session_eq_iff (h : decodeSessionRecord data = some session)
    (h' : decodeSessionRecord data' = some session') :
    session = session' ↔ ∀ i ∈ usedOffsets, data.getD i 0 = data'.getD i 0 := by
  obtain ⟨-, hstart, hstop, henergy⟩ := decodeSessionRecord_eq_some_iff.1 h
  obtain ⟨-, hstart', hstop', henergy'⟩ := decodeSessionRecord_eq_some_iff.1 h'
  rw [usedOffsets_eq, List.forall_mem_append, List.forall_mem_append, ← slice_eq_iff,
    ← energy_eq_iff, ← henergy, ← henergy']
  constructor
  · rintro rfl
    exact ⟨⟨hstart.bytes_eq hstart', hstop.bytes_eq hstop'⟩, rfl⟩
  · rintro ⟨⟨hs, ht⟩, he⟩
    obtain ⟨start, stop, energy⟩ := session
    obtain ⟨start', stop', energy'⟩ := session'
    rw [ChargingSession.mk.injEq]
    exact ⟨(hstart.congr hs).unique hstart', (hstop.congr ht).unique hstop', he⟩

end

/-! ### Laying out a record -/

def timeBytes (moment : DateTime) : Bytes :=
  [UInt8.ofNat moment.hour, UInt8.ofNat moment.minute, UInt8.ofNat moment.second]

def dateBytes (moment : DateTime) : Bytes :=
  [UInt8.ofNat (moment.year - yearEpoch), UInt8.ofNat moment.month, UInt8.ofNat moment.day]

/-- The record of a session. `filler` is what stands at the offsets that are not used. -/
def sessionRecord (start stop : DateTime) (energy : Word) (filler : ℕ → UInt8) : Bytes :=
  [recordStartMarker] ++ timeBytes start ++ [filler 4, filler 5] ++ dateBytes start ++
    [filler 9, filler 10] ++ timeBytes stop ++ [filler 14, filler 15] ++ dateBytes stop ++
    [filler 19, filler 20] ++ energy.bytes ++ [recordEndMarker]

/-- The years that a record can express. -/
def DateTime.Expressible (moment : DateTime) : Prop := 1900 ≤ moment.year ∧ moment.year ≤ 2155

private lemma toNat_byte {n : ℕ} (h : n < 256) : (UInt8.ofNat n).toNat = n :=
  UInt8.toNat_ofNat_of_lt' h

private lemma daysInMonth_le (year month : ℕ) : daysInMonth year month ≤ 31 := by
  unfold daysInMonth
  split_ifs <;> omega

/-- A moment can be read off its bytes. -/
private lemma says_of_bytes {data : Bytes} {t d : ℕ} {moment : DateTime} (hy : moment.Expressible)
    (ht : ∀ i < 3, data.getD (t + i) 0 = (timeBytes moment).getD i 0)
    (hd : ∀ i < 3, data.getD (d + i) 0 = (dateBytes moment).getD i 0) : Says data t d moment := by
  obtain ⟨⟨-, -⟩, ⟨-, hmonth⟩, ⟨-, hday⟩, hhour, hminute, hsecond⟩ := moment.valid
  have hdays := daysInMonth_le moment.year moment.month
  have hepoch : yearEpoch = 1900 := rfl
  obtain ⟨hlow, hhigh⟩ := hy
  have hyear : numberAt data d = moment.year - yearEpoch :=
    (congrArg UInt8.toNat (hd 0 (by decide))).trans (toNat_byte (by omega))
  exact {
    year := by omega
    month := ((congrArg UInt8.toNat (hd 1 (by decide))).trans (toNat_byte (by omega))).symm
    day := ((congrArg UInt8.toNat (hd 2 (by decide))).trans (toNat_byte (by omega))).symm
    hour := ((congrArg UInt8.toNat (ht 0 (by decide))).trans (toNat_byte (by omega))).symm
    minute := ((congrArg UInt8.toNat (ht 1 (by decide))).trans (toNat_byte (by omega))).symm
    second := ((congrArg UInt8.toNat (ht 2 (by decide))).trans (toNat_byte (by omega))).symm }

/-- A record that was laid out is decoded to its session. -/
lemma decodeSessionRecord_sessionRecord {start stop : DateTime} (hstart : start.Expressible)
    (hstop : stop.Expressible) (energy : Word) (filler : ℕ → UInt8) :
    decodeSessionRecord (sessionRecord start stop energy filler) =
      some ⟨start, stop, scaledEnergy energy.toNat⟩ := by
  have hrecord : IsRecord (sessionRecord start stop energy filler) :=
    ⟨rfl, rfl, by rw [sessionRecord, List.getLast?_concat]⟩
  have henergy : Word.slice (sessionRecord start stop energy filler) 21 = energy := by
    simp [sessionRecord, Word.slice, timeBytes, dateBytes, Word.bytes]
  refine decodeSessionRecord_eq_some_iff.2 ⟨hrecord, ?_, ?_, by rw [henergy]⟩
  · refine says_of_bytes hstart (fun i hi => ?_) fun i hi => ?_ <;>
    · interval_cases i <;> simp [sessionRecord, timeBytes, dateBytes]
  · refine says_of_bytes hstop (fun i hi => ?_) fun i hi => ?_ <;>
    · interval_cases i <;> simp [sessionRecord, timeBytes, dateBytes]

/-- Decoding session records. -/
theorem session_codec :
    (∀ data, decodeSessionRecordOf data = .ok (decodeSessionRecord data)) ∧
    (∀ data, (∃ session, decodeSessionRecord data = some session) ↔
      data.length = 26 ∧ data.head? = some 0x7C ∧ data.getLast? = some 0x25 ∧
        ValidTimestamp data 1 6 ∧ ValidTimestamp data 11 16) ∧
    (∀ data session, decodeSessionRecord data = some session →
      Says data 1 6 session.start ∧ Says data 11 16 session.stop ∧
        session.energyKwh = binary64 ((Word.slice data 21).toNat * energyScale)) ∧
    (∀ data data' session session', decodeSessionRecord data = some session →
      decodeSessionRecord data' = some session' →
      (session = session' ↔ ∀ i ∈ usedOffsets, data.getD i 0 = data'.getD i 0)) ∧
    (∀ (start stop : DateTime) (count : ℕ) (filler : ℕ → UInt8),
      (1900 ≤ start.year ∧ start.year ≤ 2155) → (1900 ≤ stop.year ∧ stop.year ≤ 2155) →
      count < 2 ^ 32 →
      decodeSessionRecord (sessionRecord start stop (.ofNat count) filler) =
        some ⟨start, stop, binary64 (count * energyScale)⟩) ∧
    energyScale = binary64 (1 / 100) ∧
    (∀ count : ℕ, |binary64 (count * energyScale) - count / 100| ≤ (count : ℚ) / 100 / 2 ^ 52) ∧
    ∀ count count' : ℕ, count < 2 ^ 32 → count' < 2 ^ 32 →
      binary64 (count * energyScale) = binary64 (count' * energyScale) → count = count' := by
  refine ⟨decodeSessionRecordOf_eq, fun data => ?_, fun data session h => ?_,
    fun data data' session session' h h' => session_eq_iff h h',
    fun start stop count filler hstart hstop hcount => ?_, energyScale_eq,
    abs_scaledEnergy_sub_le, fun count count' => scaledEnergy_injective⟩
  · rw [exists_decodeSessionRecord_iff, IsRecord, and_assoc, and_assoc]
    rfl
  · obtain ⟨-, hstart, hstop, henergy⟩ := decodeSessionRecord_eq_some_iff.1 h
    exact ⟨hstart, hstop, henergy⟩
  · rw [decodeSessionRecord_sessionRecord hstart hstop, Word.toNat_ofNat hcount, scaledEnergy]

end SpinevBle
