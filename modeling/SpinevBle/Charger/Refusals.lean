import SpinevBle.Charger.Methods

/-!
# What the arguments of a method can raise

A method raises outside its operations only while it builds its frames and while it decodes its
replies. The decoders raise errors of the package only, and so do the builders as long as every
integer fits into the bytes it is packed into.
-/

namespace SpinevBle

/-- The errors of the package. -/
def IsSpinEv (x : Exc) : Prop := x.isSpinEvError = true

/-- Code raises errors of the package only. -/
abbrev Tidy {α : Type} (x : Except Exc α) : Prop := OnlyRaises IsSpinEv x

lemma tidy_error {α : Type} {cls : ErrorClass} {m : String} :
    Tidy (.error (.spinEv cls m) : Except Exc α) :=
  OnlyRaises.error_iff.2 rfl

/-! ### Builders -/

lemma tidy_buildWriteUInt {register : Register} {n : ℤ} (h : 0 ≤ n ∧ n < 0x100000000) :
    Tidy (buildWriteUInt register n) := by
  rw [buildWriteUInt, packUInt_eq_ok.2 ⟨h, rfl⟩]
  exact .ok _

/-- A read can be built for every register byte and every unsigned 32 bit parameter. -/
lemma buildReadOf_eq_ok {register flag : UInt8} {parameter : ℤ}
    (h : 0 ≤ parameter ∧ parameter < 0x100000000) :
    buildReadOf register parameter flag = .ok ⟨register, flag, Word.ofNat parameter.toNat⟩ :=
  buildReadOf_iff.2 ⟨rfl, rfl, packUInt_eq_ok.2 ⟨h, rfl⟩⟩

lemma buildRead_eq_ok {register parameter : ℤ} {flag : UInt8} (hr : 0 ≤ register ∧ register < 256)
    (hp : 0 ≤ parameter ∧ parameter < 0x100000000) :
    buildRead register parameter flag =
      .ok ⟨UInt8.ofNat register.toNat, flag, Word.ofNat parameter.toNat⟩ := by
  rw [buildRead, byte_eq_ok.2 ⟨hr, rfl⟩, bind_ok, buildReadOf_eq_ok hp]

lemma tidy_buildRead_id (register : Register) : Tidy (buildRead register.id) := by
  rw [buildRead_id, buildReadOf_eq_ok (by decide)]
  exact .ok _

lemma tidy_buildAlarmRead (bank : ℕ) : Tidy (buildAlarmRead bank) := by
  refine .bind (.ite (fun _ => .ok _) fun _ => tidy_error) fun _ _ => .ite (fun _ => ?_) fun _ => ?_
  · exact tidy_buildRead_id .alarms
  · rw [buildRead_id, buildReadOf_eq_ok (by decide)]
    exact .ok _

lemma tidy_buildControl (command : Command) (password : ℤ) :
    Tidy (buildControl command password) :=
  .ite (fun h => tidy_buildWriteUInt (control_lt command h)) fun _ => tidy_error

lemma tidy_buildCommit : Tidy buildCommit := tidy_buildWriteUInt (by decide)

lemma tidy_buildStringWrite {register : Register} {value : String} {fieldBytes : ℤ}
    (h : fieldBytes ≤ 1020) : Tidy (buildStringWrite register value fieldBytes) := by
  unfold buildStringWrite
  by_cases hf : FitsField value fieldBytes
  · rw [buildStringWriteOf_eq_ok hf h]
    exact .ok _
  · obtain ⟨m, hm⟩ := buildStringWriteOf_eq_error register.value hf
    rw [hm]
    exact tidy_error

/-! ### Settings -/

/-- The arguments of a setting can be packed. -/
def Setter.Fits : Setter → Prop
  | .currentLimit amps _ _ => ∃ raw, packFloat amps = .ok raw
  | _ => True

private lemma tidy_wifiFrames (ssid password : String) : Tidy (wifiFrames ssid password) := by
  have hcheck : ∀ name value, Tidy (checkWifiField name value) := fun _ _ =>
    .ite (fun _ => tidy_error) fun _ => .ite (fun _ => tidy_error) fun _ => .ok _
  refine .bind (hcheck _ _) fun _ _ => .bind (hcheck _ _) fun _ _ => ?_
  refine .bind (tidy_buildStringWrite (by decide)) fun _ _ => ?_
  exact .bind (tidy_buildStringWrite (by decide)) fun _ _ => .ok _

private lemma tidy_ocppFrames (config : OcppConfig) : Tidy (ocppFrames config) := by
  simp only [ocppFrames, throw_eq_error, bind_error]
  split_ifs with hhost hport
  · exact tidy_error
  · have hport : 0 ≤ config.port ∧ config.port < 0x100000000 := by
      unfold maxPort at hport
      omega
    refine .bind (tidy_buildStringWrite (by decide)) fun _ _ => ?_
    refine .bind (tidy_buildWriteUInt hport) fun _ _ => ?_
    refine .bind (tidy_buildStringWrite (by decide)) fun _ _ => ?_
    exact .bind (tidy_buildStringWrite (by decide)) fun _ _ => .ok _
  · exact tidy_error

private lemma tidy_buildTimezone (hours minutes : ℤ) : Tidy (buildTimezone hours minutes) := by
  refine .ite (fun h => tidy_buildWriteUInt ⟨Int.natCast_nonneg _, ?_⟩) fun _ => tidy_error
  have hh : hours.toNat < 2 ^ 8 := by omega
  have hm : minutes.toNat < 2 ^ 8 := by omega
  have := Nat.append_lt hm hh
  omega

private lemma tidy_timezoneFrames (hours minutes : ℤ) : Tidy (timezoneFrames hours minutes) := by
  unfold timezoneFrames
  split_ifs
  · exact .bind (tidy_buildTimezone hours minutes) fun _ _ => .ok _
  · exact tidy_error

private lemma tidy_packed {register : Register} {a b c : ℕ} (ha : a < 2 ^ 8) (hb : b < 2 ^ 8)
    (hc : c < 2 ^ 8) : Tidy (buildWriteUInt register ((a <<< 16 ||| b <<< 8 ||| c : ℕ) : ℤ)) := by
  have hle : b <<< 8 ||| c < 2 ^ 16 := Nat.append_lt hc hb
  have hlt : a <<< 16 ||| (b <<< 8 ||| c) < 2 ^ 24 := Nat.append_lt hle ha
  rw [← Nat.or_assoc] at hlt
  exact tidy_buildWriteUInt ⟨Int.natCast_nonneg _, by omega⟩

private lemma tidy_clockFrames (moment : DateTime) : Tidy (clockFrames moment) := by
  refine .bind ?_ fun _ _ => .bind ?_ fun _ _ => .ok _
  · refine .ite (fun h => ?_) fun _ => tidy_error
    exact tidy_packed (by omega) (by omega) (by omega)
  · refine .ite (fun h => ?_) fun _ => tidy_error
    unfold yearEpoch
    exact tidy_packed (by omega) (by omega) (by omega)

private lemma tidy_randomDelayFrames (seconds : ℤ) : Tidy (randomDelayFrames seconds) := by
  unfold randomDelayFrames
  split_ifs with h
  · have hs : 0 ≤ seconds ∧ seconds < 0x100000000 := by
      unfold maxRandomDelayS at h
      omega
    exact .bind (tidy_buildWriteUInt hs) fun _ _ => .ok _
  · exact tidy_error

/-- What a setter refuses it refuses with an error of the package. -/
lemma Setter.tidy_frames {setter : Setter} (h : setter.Fits) : Tidy setter.frames := by
  cases setter with
  | wifi ssid password => exact tidy_wifiFrames ssid password
  | ocppConfig config => exact tidy_ocppFrames config
  | timezone hours minutes => exact tidy_timezoneFrames hours minutes
  | syncClock now moment => exact tidy_clockFrames (moment.getD now)
  | randomDelay seconds => exact tidy_randomDelayFrames seconds
  | internetConnectivity enabled =>
    refine .bind (tidy_buildWriteUInt ?_) fun _ _ => .ok _
    cases enabled <;> decide
  | currentLimit amps maxAmps allow =>
    obtain ⟨raw, hraw⟩ := h
    rw [Setter.frames, buildWriteFloat, hraw]
    exact .ok _

/-! ### Decoders -/

lemma tidy_valueBytes (payload : Bytes) (label : String) : Tidy (valueBytes payload label) :=
  .ite (fun _ => tidy_error) fun _ => .ok _

lemma tidy_decodeUInt (raw : Bytes) : Tidy (decodeUInt raw) :=
  .ite (fun _ => .ok _) fun _ => tidy_error

lemma tidy_decodeFloat (raw : Bytes) : Tidy (decodeFloat raw) :=
  .ite (fun _ => .ok _) fun _ => tidy_error

lemma tidy_decodeEnergy (raw : Bytes) : Tidy (decodeEnergy raw) :=
  .bind (tidy_decodeUInt raw) fun _ _ => .ok _

lemma tidy_decodeFirmwareVersion (raw : Bytes) : Tidy (decodeFirmwareVersion raw) :=
  .ite (fun _ => .ok _) fun _ => tidy_error

lemma tidy_decodeAlarmDefs (word bank : ℕ) : Tidy (decodeAlarmDefs word bank) :=
  .bind (.ite (fun _ => .ok _) fun _ => tidy_error) fun _ _ => .ok _

lemma tidy_checkControlReply (sent : Frame) (reply : Bytes) :
    Tidy (checkControlReply sent reply) := by
  unfold checkControlReply
  split
  · exact tidy_error
  · split_ifs
    · exact tidy_error
    · exact tidy_error
    · exact tidy_error
    · exact .ok _

end SpinevBle
