import SpinevBle.Link.Settings
import SpinevBle.Protocol.FloatCodec

/-!
# The settings as a record

What the settings of a charger are to a caller: values that are read and replaced. They know no
registers and no frames, a setting is replaced as a whole or not at all, and all that is left of the
conversions is that a text loses what its register cannot hold and a current limit is rounded. Every
script does to a charger that keeps its settings what it does to such a record.
-/

namespace SpinevBle

open Asyncio Interaction Transition

variable {σ : Type}

/-! ### The record -/

/-- The settings that can be both set and read. -/
@[ext]
structure SettingsRecord where
  wifiSsid : String
  wifiPassword : String
  ocppConfig : OcppConfig
  timezone : ℕ × ℕ
  randomDelay : ℕ
  currentLimit : PyFloat

/-- The nearest number that the charger has for a float. -/
def PyFloat.rounded (value : PyFloat) : PyFloat :=
  match packFloat value with
  | .ok word => unpackFloat word
  | .error _ => value

namespace SettingsRecord

/-- What a setter replaces. There is no getter for the clock and the connectivity. -/
def put (settings : SettingsRecord) : Setter → SettingsRecord
  | .wifi ssid password =>
    { settings with wifiSsid := readBack ssid, wifiPassword := readBack password }
  | .ocppConfig config =>
    { settings with
      ocppConfig := ⟨readBack config.host, config.port, readBack config.path,
        readBack config.chargePointId⟩ }
  | .timezone hours minutes => { settings with timezone := (hours.toNat, minutes.toNat) }
  | .randomDelay seconds => { settings with randomDelay := seconds.toNat }
  | .currentLimit amps _ _ => { settings with currentLimit := amps.rounded }
  | .syncClock .. | .internetConnectivity _ => settings

/-- What a getter returns. -/
def view (settings : SettingsRecord) : (m : Method) → Option m.Result
  | .getWifiSsid => some settings.wifiSsid
  | .getWifiPassword => some settings.wifiPassword
  | .getOcppConfig => some settings.ocppConfig
  | .getTimezone => some settings.timezone
  | .getRandomDelay => some settings.randomDelay
  | .getCurrentLimit => some settings.currentLimit
  | _ => none

end SettingsRecord

/-- The record, and whether there is a link to the charger that keeps it. -/
structure Panel where
  settings : SettingsRecord
  connected : Bool

namespace Panel

/-- Replace a setting with a value that is fit to be sent. -/
def write (p : Panel) (setter : Setter) : Except Failure Panel := do
  let _ ← coarse setter.frames
  if p.connected then return { p with settings := p.settings.put setter }
  else throw (.spinEv .connection)

lemma write_error {p : Panel} {setter : Setter} {e : Exc} (hf : setter.frames = .error e) :
    p.write setter = .error e.failure := by
  rw [write, hf]
  rfl

lemma write_offline {p : Panel} {setter : Setter} {frames : List Frame}
    (hc : p.connected = false) (hf : setter.frames = .ok frames) :
    p.write setter = .error (.spinEv .connection) := by
  rw [write, hf, hc]
  rfl

lemma write_ok {p : Panel} {setter : Setter} {frames : List Frame} (hc : p.connected = true)
    (hf : setter.frames = .ok frames) :
    p.write setter = .ok { p with settings := p.settings.put setter } := by
  rw [write, hf, hc]
  rfl

/-- What a setter comes to. Whether a session is open is only asked for a current limit. -/
def attempt (p : Panel) (sessionOpen : Bool) : Setter → Except Failure Panel
  | .currentLimit amps maxAmps allow => do
    if ¬ (minCurrentA.le amps ∧ amps.le maxAmps) then throw (.spinEv .value)
    if ¬ allow then
      if ¬ p.connected then throw (.spinEv .connection)
      if sessionOpen then throw (.spinEv .busy)
    p.write (.currentLimit amps maxAmps allow)
  | setter => p.write setter

lemma attempt_eq {p : Panel} {setter : Setter} (hs : setter.isRequest = false)
    (sessionOpen : Bool) : p.attempt sessionOpen setter = p.write setter := by
  cases setter with
  | currentLimit => cases hs
  | wifi | ocppConfig | timezone | syncClock | randomDelay | internetConnectivity => rfl

section

variable {p : Panel} {amps maxAmps : PyFloat} {sessionOpen : Bool}

lemma attempt_outside {allow : Bool} (h : ¬ (minCurrentA.le amps ∧ amps.le maxAmps)) :
    p.attempt sessionOpen (.currentLimit amps maxAmps allow) = .error (.spinEv .value) := by
  simp only [attempt, h, not_false_eq_true, if_true]
  rfl

lemma attempt_allowed (h : minCurrentA.le amps ∧ amps.le maxAmps) :
    p.attempt sessionOpen (.currentLimit amps maxAmps true) =
      p.write (.currentLimit amps maxAmps true) := by
  simp [attempt, h]

lemma attempt_offline (h : minCurrentA.le amps ∧ amps.le maxAmps) (hc : p.connected = false) :
    p.attempt sessionOpen (.currentLimit amps maxAmps false) = .error (.spinEv .connection) := by
  simp only [attempt, h, hc, and_self, not_true_eq_false, Bool.false_eq_true, not_false_eq_true,
    if_true, if_false]
  rfl

lemma attempt_guarded (h : minCurrentA.le amps ∧ amps.le maxAmps) (hc : p.connected = true) :
    p.attempt sessionOpen (.currentLimit amps maxAmps false) =
      if sessionOpen then .error (.spinEv .busy)
      else p.write (.currentLimit amps maxAmps false) := by
  simp only [attempt, h, hc, and_self, not_true_eq_false, Bool.false_eq_true, not_false_eq_true,
    if_true, if_false]
  cases sessionOpen <;> rfl

end

/-- A change is made, or it raises and the panel stays as it was. -/
inductive Ends (p : Panel) : Except Failure Panel → Except Failure Unit → Panel → Prop
  | done {q} : Ends p (.ok q) (.ok ()) q
  | refused {e} : Ends p (.error e) (.error e) p

/-- What a method may come to. Sessions open and close when they like, and what the other methods
return is left open. -/
inductive Does : Panel → (m : Method) → Except Failure m.Result → Panel → Prop
  | read {p m v} (hc : p.connected = true) (hv : p.settings.view m = some v) : Does p m (.ok v) p
  | offline {p m v} (hc : p.connected = false) (hv : p.settings.view m = some v) :
      Does p m (.error (.spinEv .connection)) p
  | set {p setter applied r q} (sessionOpen : Bool)
      (h : p.Ends (p.attempt sessionOpen setter) r q) : Does p (.set setter applied) r q
  | other {p m} (r : Except Failure m.Result) (hs : ∀ setter applied, m ≠ .set setter applied)
      (hv : p.settings.view m = none) : Does p m r p

/-- What a call of a script may come to, with the calls so far. -/
inductive Calls : (call : ClientCall) → List Entry × Panel → call.Result → List Entry × Panel → Prop
  | connect {log p} : Calls .connect (log, p) () (log, { p with connected := true })
  | disconnect {log p} : Calls .disconnect (log, p) () (log, { p with connected := false })
  | method {log p m r q} (h : p.Does m r q) :
      Calls (.method m) (log, p) r (log ++ [⟨m, r⟩], q)

end Panel

/-! ### Chargers that keep their settings -/

/-- The settings of one word, which is stored as the register's only one. -/
def wordRegisters : List Register := [.timezone, .randomDelay, .currentLimit]

/-- The charger stores and answers these settings as well. It acknowledges a current limit, and
tells its state whenever it is asked, which may be another one each time. -/
structure Firmware.KeepsSettings (charger : Firmware σ) (stored : σ → Register → UInt8 → Word) :
    Prop extends charger.StoresSettings stored where
  wordWrites : ∀ s frame, ∀ r ∈ wordRegisters,
    stored (charger s frame).1 r Operation.write.value =
      if frame.register = r.value ∧ frame.flag = Operation.write.value then frame.raw
      else stored s r Operation.write.value
  wordReads : ∀ s, ∀ r ∈ wordRegisters, (charger s (readFrame r)).2 =
    some (Frame.mk r.value Operation.read.value (stored s r Operation.write.value)).bytes
  stateReads : ∀ s, ∃ word, (charger s (readFrame .state)).2 =
    some (Frame.mk Register.state.value Operation.read.value word).bytes
  acknowledges : ∀ s frame, frame.register = Register.currentLimit.value →
    frame.flag = Operation.write.value →
    ∃ p, (charger s frame).2 = some p ∧ SpinevBle.Answers p frame.register frame.flag

/-- The words that make up the record. -/
def InRecord (r : Register) (seq : UInt8) : Prop :=
  r ∈ settingRegisters ∧ seq ≠ Operation.read.value ∨ r ∈ wordRegisters ∧ seq = Operation.write.value

/-- Hours and minutes of an offset, as `async_get_timezone` takes them out of its word. -/
def splitOffset (value : ℕ) : ℕ × ℕ := (value >>> 8 &&& 0xFF, value &&& 0xFF)

/-- The settings that these words stand for. -/
def recordOf (v : Register → UInt8 → Word) : SettingsRecord where
  wifiSsid := decodeString (storedBytes v .wifiSsid)
  wifiPassword := decodeString (storedBytes v .wifiPassword)
  ocppConfig :=
    { host := decodeString (storedBytes v .ocppHost)
      port := (v .ocppPort Operation.write.value).toNat
      path := decodeString (storedBytes v .ocppPath)
      chargePointId := decodeString (storedBytes v .ocppChargePointId) }
  timezone := splitOffset (v .timezone Operation.write.value).toNat
  randomDelay := (v .randomDelay Operation.write.value).toNat
  currentLimit := unpackFloat (v .currentLimit Operation.write.value)

/-- What a world is to its caller. -/
def World.panel (stored : σ → Register → UInt8 → Word) (w : World σ) : Panel :=
  ⟨recordOf (stored w.peer), w.connected⟩

/-! ### Words of the record -/

lemma InRecord.text {r : Register} (hr : r ∈ settingRegisters) {i : ℕ} (hi : i < r.words) :
    InRecord r (UInt8.ofNat (i + 1)) :=
  .inl ⟨hr, number_ne_read hi⟩

lemma InRecord.port : InRecord .ocppPort Operation.write.value := .inl ⟨by decide, by decide⟩

lemma InRecord.word {r : Register} (hr : r ∈ wordRegisters) : InRecord r Operation.write.value :=
  .inr ⟨hr, rfl⟩

lemma InRecord.seq_ne_read {r : Register} {seq : UInt8} (h : InRecord r seq) :
    seq ≠ Operation.read.value := by
  rcases h with ⟨-, hseq⟩ | ⟨-, rfl⟩
  · exact hseq
  · decide

lemma storedBytes_congr {v v' : Register → UInt8 → Word} {r : Register} (hr : r ∈ settingRegisters)
    (h : ∀ seq, InRecord r seq → v r seq = v' r seq) : storedBytes v r = storedBytes v' r := by
  refine List.flatMap_congr fun i hi => ?_
  rw [h _ (.text hr (List.mem_range.1 hi))]

/-- The record depends on its words only. -/
lemma recordOf_congr {v v' : Register → UInt8 → Word}
    (h : ∀ r seq, InRecord r seq → v r seq = v' r seq) : recordOf v = recordOf v' := by
  have htext : ∀ r ∈ settingRegisters, storedBytes v r = storedBytes v' r := fun r hr =>
    storedBytes_congr hr (h r)
  have hword : ∀ r ∈ wordRegisters, v r Operation.write.value = v' r Operation.write.value :=
    fun r hr => h r _ (.word hr)
  simp only [recordOf, htext .wifiSsid (by decide), htext .wifiPassword (by decide),
    htext .ocppHost (by decide), htext .ocppPath (by decide), htext .ocppChargePointId (by decide),
    h _ _ .port, hword .timezone (by decide), hword .randomDelay (by decide),
    hword .currentLimit (by decide)]

namespace Firmware.KeepsSettings

variable {charger : Firmware σ} {stored : σ → Register → UInt8 → Word}

/-- A frame changes the word that it writes, and no other one. -/
lemma written_word (h : charger.KeepsSettings stored) (s : σ) (f : Frame) {r : Register}
    {seq : UInt8} (hr : InRecord r seq) : stored (charger s f).1 r seq =
      if f.register = r.value ∧ f.flag = seq then f.raw else stored s r seq := by
  rcases hr with ⟨hr, hseq⟩ | ⟨hr, rfl⟩
  · exact h.writes s f r hr seq hseq
  · exact h.wordWrites s f r hr

/-- What the frames do not write to stays. -/
lemma untouched (h : charger.KeepsSettings stored) {r : Register} {seq : UInt8}
    (hr : InRecord r seq) {frames : List Frame}
    (hf : ∀ f ∈ frames, f.flag = Operation.read.value ∨ f.register ≠ r.value) (s : σ) :
    wordsAfter charger stored frames s r seq = stored s r seq := by
  unfold wordsAfter
  induction frames generalizing s with
  | nil => rfl
  | cons f frames ih =>
    obtain ⟨hne, hf⟩ := List.forall_mem_cons.1 hf
    rw [List.foldl_cons, ih hf, h.written_word s f hr, if_neg]
    rintro ⟨hreg, hflag⟩
    rcases hne with hread | hne
    · exact hr.seq_ne_read (hflag ▸ hread)
    · exact hne hreg

/-- A frame that does not write to the record leaves it alone. -/
lemma recordOf_spared (h : charger.KeepsSettings stored) {frames : List Frame}
    (hf : ∀ f ∈ frames, SparesRegisters (settingRegisters ++ wordRegisters) f) (s : σ) :
    recordOf (wordsAfter charger stored frames s) = recordOf (stored s) := by
  refine recordOf_congr fun r seq hr => h.untouched hr (fun f hf' => ?_) s
  exact (hf f hf').imp id fun hne => hne r (List.mem_append.2 (hr.imp And.left And.left))

end Firmware.KeepsSettings

/-! ### Values and their words -/

lemma splitOffset_pack {hours minutes : ℕ} (hh : hours < 2 ^ 8) (hm : minutes < 2 ^ 8) :
    splitOffset (hours <<< 8 ||| minutes) = (hours, minutes) := by
  have hlow : minutes &&& 255 = minutes := by
    rw [show 255 = 2 ^ 8 - 1 from rfl, Nat.and_two_pow_sub_one_of_lt_two_pow hm]
  have hzero : hours <<< 8 &&& 255 = 0 := by
    rw [show 255 = 2 ^ 8 - 1 from rfl, Nat.and_two_pow_sub_one_eq_mod, Nat.shiftLeft_eq]
    exact Nat.mul_mod_left _ _
  have hhigh : (hours <<< 8 ||| minutes) >>> 8 = hours := by
    rw [Nat.shiftRight_or_distrib, Nat.shiftLeft_shiftRight, Nat.shiftRight_eq_div_pow,
      Nat.div_eq_of_lt hm, Nat.or_zero]
  rw [splitOffset, hhigh, Nat.and_or_distrib_right, hzero, hlow, Nat.zero_or,
    show 0xFF = 2 ^ 8 - 1 from rfl, Nat.and_two_pow_sub_one_of_lt_two_pow hh]

/-- The frame of a setting that is one word. -/
def wordFrame (r : Register) (word : Word) : Frame := ⟨r.value, Operation.write.value, word⟩

lemma eq_wordFrame {r : Register} {value : ℤ} {frame : Frame}
    (h : buildWriteUInt r value = .ok frame) :
    ∃ word : Word, frame = wordFrame r word ∧ (word.toNat : ℤ) = value := by
  rw [buildWriteUInt_eq, buildWriteUIntOf_iff] at h
  obtain ⟨hr, hvalue, hflag⟩ := h
  obtain ⟨register, flag, word⟩ := frame
  obtain rfl : r.value = register := hr
  obtain rfl : flag = Operation.write.value := hflag
  exact ⟨word, rfl, hvalue.symm⟩

lemma timezoneFrames_eq_ok {hours minutes : ℤ} {frames : List Frame}
    (h : timezoneFrames hours minutes = .ok frames) :
    ∃ word, frames = [wordFrame .timezone word] ∧
      splitOffset word.toNat = (hours.toNat, minutes.toNat) := by
  unfold timezoneFrames buildTimezone at h
  split_ifs at h with hrange
  · rw [bind_eq_ok] at h
    obtain ⟨frame, hframe, h⟩ := h
    cases h
    obtain ⟨word, rfl, hword⟩ := eq_wordFrame hframe
    refine ⟨word, rfl, ?_⟩
    rw [Nat.cast_injective hword, splitOffset_pack (by omega) (by omega)]
  · cases h

lemma randomDelayFrames_eq_ok {seconds : ℤ} {frames : List Frame}
    (h : randomDelayFrames seconds = .ok frames) :
    ∃ word, frames = [wordFrame .randomDelay word] ∧ word.toNat = seconds.toNat := by
  unfold randomDelayFrames at h
  split_ifs at h with hrange
  · rw [bind_eq_ok] at h
    obtain ⟨frame, hframe, h⟩ := h
    cases h
    obtain ⟨word, rfl, hword⟩ := eq_wordFrame hframe
    exact ⟨word, rfl, by omega⟩
  · cases h

lemma buildWriteFloat_eq_ok {r : Register} {value : PyFloat} {frame : Frame}
    (h : buildWriteFloat r value = .ok frame) :
    ∃ word, frame = wordFrame r word ∧ packFloat value = .ok word ∧
      unpackFloat word = value.rounded := by
  rw [buildWriteFloat, bind_eq_ok] at h
  obtain ⟨word, hword, h⟩ := h
  cases h
  refine ⟨word, rfl, hword, ?_⟩
  rw [PyFloat.rounded, hword]

lemma limitFrames_eq_ok {amps maxAmps : PyFloat} {allow : Bool} {frames : List Frame}
    (h : (Setter.currentLimit amps maxAmps allow).frames = .ok frames) :
    ∃ frame, buildWriteFloat .currentLimit amps = .ok frame ∧ frames = [frame] := by
  rw [Setter.frames] at h
  cases hframe : buildWriteFloat .currentLimit amps with
  | ok frame =>
    rw [hframe] at h
    cases h
    exact ⟨frame, rfl, rfl⟩
  | error e =>
    rw [hframe] at h
    cases h

/-! ### What a setter does to the record -/

/-- A setting has registers of its own. -/
lemma Register.eq_of_inRecord (r' : Register) :
    ∀ r ∈ settingRegisters ++ wordRegisters, r'.value = r.value → r' = r := by
  cases r' <;> decide

section

variable {charger : Firmware σ} {stored : σ → Register → UInt8 → Word}

/-- The frames of a setter leave the other settings alone. -/
lemma untouched_of_set (h : charger.KeepsSettings stored) {setter : Setter} {frames : List Frame}
    (hf : setter.frames = .ok frames) {r : Register} {seq : UInt8} (hr : InRecord r seq)
    (hout : r ∉ setter.registers) (s : σ) :
    wordsAfter charger stored frames s r seq = stored s r seq := by
  refine h.untouched hr (fun f hf' => .inr fun heq => hout ?_) s
  obtain ⟨-, r', hr', hreg⟩ := setter.writes hf f hf'
  have hmem : r ∈ settingRegisters ++ wordRegisters :=
    List.mem_append.2 (hr.imp And.left And.left)
  exact Register.eq_of_inRecord r' r hmem (hreg ▸ heq) ▸ hr'

/-- A word that was written is the one that the record has. -/
lemma word_of_set (h : charger.KeepsSettings stored) {r : Register}
    (hr : InRecord r Operation.write.value) (word : Word) (s : σ) :
    wordsAfter charger stored [wordFrame r word] s r Operation.write.value = word :=
  (h.written_word s _ hr).trans (if_pos ⟨rfl, rfl⟩)

/-- The frames of a setter replace its setting in the record. -/
lemma recordOf_put (h : charger.KeepsSettings stored) {setter : Setter} {frames : List Frame}
    (hf : setter.frames = .ok frames) (s : σ) :
    recordOf (wordsAfter charger stored frames s) = (recordOf (stored s)).put setter := by
  have htext : ∀ r ∈ settingRegisters, r ∉ setter.registers →
      storedBytes (wordsAfter charger stored frames s) r = storedBytes (stored s) r :=
    fun r hr hout => storedBytes_congr hr fun seq hseq => untouched_of_set h hf hseq hout s
  have hword : ∀ r ∈ Register.ocppPort :: wordRegisters, r ∉ setter.registers →
      wordsAfter charger stored frames s r Operation.write.value =
        stored s r Operation.write.value := by
    intro r hr hout
    refine untouched_of_set h hf ?_ hout s
    rcases List.mem_cons.1 hr with rfl | hr
    · exact .port
    · exact .word hr
  cases setter with
  | wifi ssid password =>
    obtain ⟨rfl, hs, hp⟩ := wifiFrames_eq_ok hf
    obtain ⟨hssid, hpassword⟩ := storedBytes_wifi h.toStoresSettings hs hp s
    simp only [Setter.registers] at htext hword
    simp (disch := decide) only [recordOf, SettingsRecord.put, htext, hword, hssid, hpassword,
      decodeString_padded hs.ascii, decodeString_padded hp.ascii, readBack]
  | ocppConfig config =>
    obtain ⟨port, rfl, hport, hh, hp, hi⟩ := ocppFrames_eq_ok hf
    obtain ⟨hhost, hword', hpath, hid⟩ := storedBytes_ocpp h.toStoresSettings port hh hp hi s
    have hport' : wordsAfter charger stored (ocppPieces config port) s .ocppPort
        Operation.write.value = port :=
      Word.bytes_injective ((List.append_nil _).symm.trans hword')
    simp only [Setter.registers] at htext hword
    simp (disch := decide) only [recordOf, SettingsRecord.put, htext, hword, hhost, hpath, hid,
      hport', hport, decodeString_padded hh.ascii, decodeString_padded hp.ascii,
      decodeString_padded hi.ascii, readBack]
  | timezone hours minutes =>
    obtain ⟨word, rfl, hsplit⟩ := timezoneFrames_eq_ok hf
    simp only [Setter.registers] at htext hword
    simp (disch := decide) only [recordOf, SettingsRecord.put, htext, hword, hsplit,
      word_of_set h (.word (.head _))]
  | randomDelay seconds =>
    obtain ⟨word, rfl, hseconds⟩ := randomDelayFrames_eq_ok hf
    simp only [Setter.registers] at htext hword
    simp (disch := decide) only [recordOf, SettingsRecord.put, htext, hword, hseconds,
      word_of_set h (.word (.tail _ (.head _)))]
  | currentLimit amps maxAmps allow =>
    obtain ⟨frame, hframe, rfl⟩ := limitFrames_eq_ok hf
    obtain ⟨word, rfl, -, hrounded⟩ := buildWriteFloat_eq_ok hframe
    simp only [Setter.registers] at htext hword
    simp (disch := decide) only [recordOf, SettingsRecord.put, htext, hword, hrounded,
      word_of_set h (.word (.tail _ (.tail _ (.head _))))]
  | syncClock now moment | internetConnectivity enabled =>
    simp only [Setter.registers] at htext hword
    simp (disch := decide) only [recordOf, SettingsRecord.put, htext, hword]

/-! ### Getters -/

variable {w : World σ} (hint : Option String)

/-- What is read of a register is the word that it is answered with. -/
lemma gives_readRaw (hw : w.connected = true) {r : Register} {word : Word}
    (ha : (charger w.peer (readFrame r)).2 =
      some (Frame.mk r.value Operation.read.value word).bytes) :
    ∃ w', Client.Gives charger.peer hint (asyncReadRaw r.id) w (.ok word.bytes) w' := by
  have hpeer : charger.peer w.peer (readFrame r) = ((charger w.peer (readFrame r)).1,
      .payload (Frame.mk r.value Operation.read.value word).bytes) := by
    simp only [Firmware.peer, ha]
    rfl
  have haccepts : (Job.request (readFrame r) r.value).Accepts
      (Frame.mk r.value Operation.read.value word).bytes := Frame.answers _
  exact ⟨_, (gives_readFrame hint r).bind
    ((Client.Gives.request hw hpeer (Job.settled_of_accepts haccepts)).bind (.raising _))⟩

/-- A getter returns what the record has. -/
lemma gives_view (h : charger.KeepsSettings stored) (hw : w.connected = true) {m : Method}
    {v : m.Result} (hv : (w.panel stored).settings.view m = some v) :
    ∃ w', Client.Gives charger.peer hint m.program w (.ok v) w' := by
  have hreads : w.Reads stored settingRegisters (stored w.peer) := ⟨hw, fun _ _ _ _ => rfl⟩
  have hword : ∀ r ∈ wordRegisters, ∃ w', Client.Gives charger.peer hint (asyncReadRaw r.id) w
      (.ok (stored w.peer r Operation.write.value).bytes) w' := fun r hr =>
    gives_readRaw hint hw (h.wordReads w.peer r hr)
  have htext : ∀ r ∈ settingRegisters, ∀ w : World σ,
      w.Reads stored settingRegisters (stored w.peer) → ∃ w', Client.Gives charger.peer hint
        (asyncReadString r.id) w (.ok (decodeString (storedBytes (stored w.peer) r))) w' :=
    fun r hr w hw => (gives_readString hint h.toStoresSettings (.refl _) hw hr).imp fun _ => And.left
  cases m <;> cases hv
  case getWifiSsid => exact htext .wifiSsid (by decide) w hreads
  case getWifiPassword => exact htext .wifiPassword (by decide) w hreads
  case getOcppConfig =>
    have hs := h.toStoresSettings
    obtain ⟨w₁, hhost, hw₁⟩ := gives_readString hint hs (.refl _) hreads (r := .ocppHost) (by decide)
    obtain ⟨w₂, hport, hw₂⟩ := gives_port hint hs (.refl _) hw₁ (by decide) (List.append_nil _)
    obtain ⟨w₃, hpath, hw₃⟩ := gives_readString hint hs (.refl _) hw₂ (r := .ocppPath) (by decide)
    obtain ⟨w₄, hid, -⟩ :=
      gives_readString hint hs (.refl _) hw₃ (r := .ocppChargePointId) (by decide)
    exact ⟨w₄, hhost.bind (hport.bind (hpath.bind (hid.bind (.ok _))))⟩
  case getTimezone =>
    obtain ⟨w', hgives⟩ := hword .timezone (by decide)
    exact ⟨w', Client.Gives.bind (hgives.bind (.raising _)) (.ok _)⟩
  case getRandomDelay =>
    obtain ⟨w', hgives⟩ := hword .randomDelay (by decide)
    exact ⟨w', hgives.bind (.raising _)⟩
  case getCurrentLimit =>
    obtain ⟨w', hgives⟩ := hword .currentLimit (by decide)
    exact ⟨w', hgives.bind (.raising _)⟩

/-- Without a link, a getter raises. -/
lemma offline_view {peer : Peer σ} (hw : w.connected = false) {settings : SettingsRecord}
    {m : Method} {v : m.Result} (hv : settings.view m = some v) :
    Client.Gives peer hint m.program w (.error notConnected) w := by
  have htext : ∀ r : Register,
      Client.Gives peer hint (asyncReadString r.id) w (.error notConnected) w := fun r =>
    (gives_readFrame hint r).bind (Client.Gives.offline _ hw).bind_error
  have hword : ∀ r : Register,
      Client.Gives peer hint (asyncReadRaw r.id) w (.error notConnected) w := fun r =>
    (gives_readFrame hint r).bind (Client.Gives.offline _ hw).bind_error
  cases m <;> cases hv
  case getWifiSsid => exact htext .wifiSsid
  case getWifiPassword => exact htext .wifiPassword
  case getOcppConfig => exact (htext .ocppHost).bind_error
  case getTimezone => exact Client.Gives.bind_error (hword .timezone).bind_error
  case getRandomDelay => exact (hword .randomDelay).bind_error
  case getCurrentLimit => exact (hword .currentLimit).bind_error

/-! ### Everything else -/

/-- A method that sets nothing sends no frame that does. -/
lemma Method.Issues.spares_record {m : Method} {j : Job} (h : m.Issues j)
    (hm : ∀ setter applied, m ≠ .set setter applied) :
    ∀ f ∈ j.frames, SparesRegisters (settingRegisters ++ wordRegisters) f := by
  have hother : ∀ r', r' ∉ settingRegisters ++ wordRegisters → ∀ f : Frame,
      f.register = r'.value → SparesRegisters (settingRegisters ++ wordRegisters) f :=
    fun r' hr' f hf => .inr fun r hr heq => hr' (Register.eq_of_inRecord r' r hr (hf ▸ heq) ▸ hr)
  have hread : ∀ {register parameter frame}, buildRead register parameter = .ok frame →
      ∀ f ∈ [frame], SparesRegisters (settingRegisters ++ wordRegisters) f := by
    intro register parameter frame h f hf
    obtain rfl := List.mem_singleton.1 hf
    exact .inl (buildRead_iff.1 h).2.2.symm
  intro f hf
  cases h with
  | readRaw h | readString h | read _ h => exact hread h f hf
  | alarms _ h =>
    obtain rfl := List.mem_singleton.1 hf
    exact hother .alarms (by decide) _ (register_buildAlarmRead h)
  | control h =>
    obtain rfl := List.mem_singleton.1 hf
    exact hother .control (by decide) _ (register_buildControl h)
  | limit _ => exact absurd rfl (hm _ _)
  | setting => exact absurd rfl (hm _ _)
  | commit hc h =>
    obtain rfl := List.mem_singleton.1 hf
    exact hother .commit (by decide) _ (register_buildWriteUInt h)
  | @history count =>
    cases hx : historyFrame count with
    | error x => simp [Job.frames, hx] at hf
    | ok frame =>
      rw [Job.frames_history hx] at hf
      obtain rfl := List.mem_singleton.1 hf
      rw [historyFrame_eq] at hx
      exact hread hx _ (.head _)

/-- Delivering frames does not close the link. -/
lemma World.deliver_connected {peer : Peer σ} (j : Job) (frames : List Frame) (w : World σ) :
    (w.deliver peer hint j frames).2.connected = w.connected := by
  induction frames generalizing w with
  | nil => rfl
  | cons f frames ih =>
    simp only [World.deliver]
    split
    · rfl
    · exact ih _

/-- A method that is no setter leaves the record and the link as they are. -/
lemma panel_of_other (h : charger.KeepsSettings stored) {m : Method}
    (hm : ∀ setter applied, m ≠ .set setter applied) (w : World σ) :
    (m.program.run.exec (World.act charger.peer hint) w).2.panel stored = w.panel stored := by
  have hpeer : ∀ s f, SparesRegisters (settingRegisters ++ wordRegisters) f →
      recordOf (stored s) = (w.panel stored).settings →
      recordOf (stored (charger.peer s f).1) = (w.panel stored).settings := by
    intro s f hf hs
    have hone : ∀ f' ∈ [f], SparesRegisters (settingRegisters ++ wordRegisters) f' :=
      List.forall_mem_singleton.2 hf
    rw [← hs]
    exact h.recordOf_spared hone s
  have hact : ∀ (o : Op) (u : World σ),
      (framesOnly (SparesRegisters (settingRegisters ++ wordRegisters))).asks o →
      u.panel stored = w.panel stored →
      True ∧ (World.act charger.peer hint o u).2.panel stored = w.panel stored := by
    intro o u ho hu
    refine ⟨trivial, ?_⟩
    cases o with
    | getPassword | setPassword => exact hu
    | locked j =>
      simp only [World.act]
      split_ifs
      · obtain ⟨hsettings, hconnected⟩ := Panel.mk.inj hu
        refine congrArg₂ Panel.mk ?_ ((World.deliver_connected hint j _ u).trans hconnected)
        exact World.deliver_keeps (I := fun s => recordOf (stored s) = (w.panel stored).settings)
          hpeer j (ho j rfl) hsettings
      · exact hu
  have hmeets := (within_of_covers (framesOnly_covers fun j hj => hj.spares_record hm)).meets
  exact (hmeets.exec (I := fun u : World σ => u.panel stored = w.panel stored) hact rfl).2

/-! ### Setters -/

/-- The frames of a commit, if there is to be one. -/
def commitFrames (applied : Bool) : List Frame :=
  if applied then [wordFrame .commit (Word.ofNat commitValue.toNat)] else []

lemma spares_commitFrames (applied : Bool) :
    ∀ f ∈ commitFrames applied, SparesRegisters (settingRegisters ++ wordRegisters) f := by
  intro f hf
  cases applied with
  | false => cases hf
  | true =>
    obtain rfl := List.mem_singleton.1 hf
    have hne : ∀ r ∈ settingRegisters ++ wordRegisters, Register.commit.value ≠ r.value := by decide
    exact .inr hne

lemma gives_writeFrames (hw : w.connected = true) (frames : List Frame) :
    Client.Gives charger.peer hint (writeFrames frames) w (.ok ())
      { w with peer := frames.foldl (fun s f => (charger s f).1) w.peer } := by
  refine .writeFrames hw fun s f => ?_
  simp only [Firmware.peer]
  cases (charger s f).2 <;> rfl

lemma gives_commitIf (hw : w.connected = true) (applied : Bool) :
    Client.Gives charger.peer hint (commitIf applied) w (.ok ())
      { w with peer := (commitFrames applied).foldl (fun s f => (charger s f).1) w.peer } := by
  cases applied with
  | false => exact .ok ()
  | true =>
    have hbuild : buildCommit = .ok (wordFrame .commit (Word.ofNat commitValue.toNat)) := rfl
    have hframe : Client.Gives charger.peer hint (raising buildCommit) w
        (.ok (wordFrame .commit (Word.ofNat commitValue.toNat))) w := by
      rw [hbuild]
      exact .raising _
    exact hframe.bind (gives_writeFrames hint hw _)

/-- A commit does not change the record. -/
lemma panel_commit (h : charger.KeepsSettings stored) (applied : Bool) (s : σ) (connected : Bool)
    (password : Option ℤ) :
    World.panel stored ⟨(commitFrames applied).foldl (fun s f => (charger s f).1) s, connected,
      password⟩ = ⟨recordOf (stored s), connected⟩ :=
  congrArg (Panel.mk · connected) (h.recordOf_spared (spares_commitFrames applied) s)

/-- A setting that is sent replaces the one in the record. -/
lemma ends_write (h : charger.KeepsSettings stored) {setter : Setter} {frames : List Frame}
    (hf : setter.frames = .ok frames) {x : Client Unit} (applied : Bool)
    (hx : Client.Gives charger.peer hint x w (.ok ())
      { w with peer := frames.foldl (fun s f => (charger s f).1) w.peer })
    (hw : w.connected = true) :
    ∃ w', Client.Gives charger.peer hint (x >>= fun _ => commitIf applied) w (.ok ()) w' ∧
      (w.panel stored).Ends ((w.panel stored).write setter) (.ok ()) (w'.panel stored) := by
  let sent : World σ := { w with peer := frames.foldl (fun s f => (charger s f).1) w.peer }
  refine ⟨_, hx.bind (gives_commitIf hint (w := sent) hw applied), ?_⟩
  rw [panel_commit h, Panel.write_ok hw hf]
  have hput := recordOf_put h hf w.peer
  rw [wordsAfter] at hput
  rw [hput]
  exact .done

/-- A setting that is no request. -/
lemma ends_setting (h : charger.KeepsSettings stored) {setter : Setter}
    (hs : setter.isRequest = false) (applied : Bool) (w : World σ) :
    ∃ r w', Client.Gives charger.peer hint (setter.program applied) w r w' ∧
      (w.panel stored).Ends ((w.panel stored).write setter) (coarse r) (w'.panel stored) := by
  rw [Setter.program_eq hs, writeSetting]
  cases hf : setter.frames with
  | error e =>
    refine ⟨_, w, (Client.Gives.raising (.error e)).bind_error, ?_⟩
    rw [Panel.write_error hf]
    exact .refused
  | ok frames =>
    cases hw : w.connected with
    | false =>
      refine ⟨_, w, (Client.Gives.raising (.ok frames)).bind
        (Client.Gives.offline _ hw).bind_error, ?_⟩
      rw [Panel.write_offline hw hf]
      exact .refused
    | true =>
      obtain ⟨w', hgives, hends⟩ :=
        ends_write hint h hf applied (gives_writeFrames hint hw frames) hw
      exact ⟨_, w', (Client.Gives.raising (.ok frames)).bind hgives, hends⟩

/-- A current limit, past its checks. -/
lemma ends_limit (h : charger.KeepsSettings stored) (amps maxAmps : PyFloat) (allow applied : Bool)
    (w : World σ) :
    ∃ r w', Client.Gives charger.peer hint (do
        let frame ← raising (buildWriteFloat .currentLimit amps)
        let _ ← request frame Register.currentLimit.value
        commitIf applied) w r w' ∧
      (w.panel stored).Ends ((w.panel stored).write (.currentLimit amps maxAmps allow)) (coarse r)
        (w'.panel stored) := by
  cases hb : buildWriteFloat .currentLimit amps with
  | error e =>
    refine ⟨_, w, (Client.Gives.raising (.error e)).bind_error, ?_⟩
    rw [Panel.write_error (e := e) (by rw [Setter.frames, hb]; rfl)]
    exact .refused
  | ok frame =>
    have hf : (Setter.currentLimit amps maxAmps allow).frames = .ok [frame] := by
      rw [Setter.frames, hb]
      rfl
    cases hw : w.connected with
    | false =>
      refine ⟨_, w, (Client.Gives.raising (.ok frame)).bind
        (Client.Gives.offline _ hw).bind_error, ?_⟩
      rw [Panel.write_offline hw hf]
      exact .refused
    | true =>
      obtain ⟨word, rfl, -⟩ := buildWriteFloat_eq_ok hb
      obtain ⟨p, hp, ha⟩ := h.acknowledges w.peer (wordFrame .currentLimit word) rfl rfl
      have hpeer : charger.peer w.peer (wordFrame .currentLimit word) =
          ((charger w.peer (wordFrame .currentLimit word)).1, .payload p) := by
        simp only [Firmware.peer, hp]
        rfl
      have hsent : Client.Gives charger.peer hint
          (request (wordFrame .currentLimit word) Register.currentLimit.value) w (.ok p) _ :=
        .request hw hpeer (Job.settled_of_accepts ha)
      obtain ⟨w', hgives, hends⟩ := ends_write hint h hf applied (hsent.map fun _ => ()) hw
      refine ⟨.ok (), w', (Client.Gives.raising (.ok _)).bind ?_, hends⟩
      simpa only [bind_map_left] using hgives

/-- The state is read, and whatever it is, nothing has changed. -/
lemma gives_stateValue (h : charger.KeepsSettings stored) (hw : w.connected = true) :
    ∃ n w', Client.Gives charger.peer hint asyncGetStateValue w (.ok n) w' ∧
      w'.panel stored = w.panel stored := by
  obtain ⟨word, hword⟩ := h.stateReads w.peer
  obtain ⟨w', hraw⟩ := gives_readRaw hint hw hword
  have hgives : Client.Gives charger.peer hint asyncGetStateValue w (.ok word.toNat) w' :=
    hraw.bind (.raising _)
  refine ⟨_, w', hgives, ?_⟩
  have hpanel := panel_of_other hint h (m := .getStateValue) (by rintro _ _ ⟨⟩) w
  rw [show (Method.getStateValue.program.run.exec (World.act charger.peer hint) w).2 = w' from
    congrArg Prod.snd hgives] at hpanel
  exact hpanel

/-- A current limit is checked, then the state is read, and then it is sent. -/
lemma does_limit (h : charger.KeepsSettings stored) (amps maxAmps : PyFloat) (allow applied : Bool)
    (w : World σ) :
    ∃ r w' sessionOpen, Client.Gives charger.peer hint
        (asyncSetCurrentLimit amps maxAmps applied allow) w r w' ∧
      (w.panel stored).Ends
        ((w.panel stored).attempt sessionOpen (.currentLimit amps maxAmps allow)) (coarse r)
        (w'.panel stored) := by
  by_cases hin : minCurrentA.le amps ∧ amps.le maxAmps
  · simp only [asyncSetCurrentLimit, hin, and_self, not_true_eq_false, if_false]
    cases allow with
    | true =>
      obtain ⟨r, w', hgives, hends⟩ := ends_limit hint h amps maxAmps true applied w
      refine ⟨r, w', false, hgives, ?_⟩
      rwa [Panel.attempt_allowed hin]
    | false =>
      cases hw : w.connected with
      | false =>
        have hstate : Client.Gives charger.peer hint asyncGetStateValue w (.error notConnected) w :=
          Client.Gives.bind_error <| (gives_readFrame hint .state).bind
            (Client.Gives.offline _ hw).bind_error
        refine ⟨_, w, false, hstate.bind_error, ?_⟩
        rw [Panel.attempt_offline hin hw]
        exact .refused
      | true =>
        obtain ⟨n, w₁, hstate, hpanel⟩ := gives_stateValue hint h hw
        by_cases hopen : n ∈ sessionOpenStates
        · refine ⟨?r, w₁, true, hstate.bind ?busy, ?ends⟩
          case busy =>
            rw [if_pos hopen]
            exact (Client.Gives.raising (.error _)).bind_error
          case ends =>
            rw [Panel.attempt_guarded hin hw, hpanel]
            exact .refused
        · obtain ⟨r, w', hgives, hends⟩ := ends_limit hint h amps maxAmps false applied w₁
          refine ⟨r, w', false, hstate.bind ?_, ?_⟩
          · rw [if_neg hopen]
            exact hgives
          · rw [Panel.attempt_guarded hin hw]
            rwa [hpanel] at hends
  · rw [asyncSetCurrentLimit, if_pos hin]
    refine ⟨_, w, false, (Client.Gives.raising (.error _)).bind_error, ?_⟩
    rw [Panel.attempt_outside hin]
    exact .refused

/-- A setter does to the panel what is expected of it. -/
lemma does_set (h : charger.KeepsSettings stored) (setter : Setter) (applied : Bool)
    (w : World σ) :
    ∃ r w', Client.Gives charger.peer hint (setter.program applied) w r w' ∧
      (w.panel stored).Does (.set setter applied) (coarse r) (w'.panel stored) := by
  cases hs : setter.isRequest with
  | false =>
    obtain ⟨r, w', hgives, hends⟩ := ends_setting hint h hs applied w
    refine ⟨r, w', hgives, .set false ?_⟩
    rwa [Panel.attempt_eq hs]
  | true =>
    obtain ⟨amps, maxAmps, allow, rfl⟩ := Setter.eq_currentLimit hs
    obtain ⟨r, w', sessionOpen, hgives, hends⟩ := does_limit hint h amps maxAmps allow applied w
    exact ⟨r, w', hgives, .set sessionOpen hends⟩

/-! ### Scripts -/

/-- A method does to the panel what is expected of it. -/
lemma does_method (h : charger.KeepsSettings stored) (m : Method) (w : World σ) :
    (w.panel stored).Does m (coarse (m.program.run.exec (World.act charger.peer hint) w).1)
      ((m.program.run.exec (World.act charger.peer hint) w).2.panel stored) := by
  by_cases hset : ∃ setter applied, m = .set setter applied
  · obtain ⟨setter, applied, rfl⟩ := hset
    obtain ⟨r, w', hgives, hdoes⟩ := does_set hint h setter applied w
    have hgives : (Method.set setter applied).program.run.exec (World.act charger.peer hint) w =
        (r, w') := hgives
    rwa [hgives]
  · have hset : ∀ setter applied, m ≠ .set setter applied :=
      fun setter applied hm => hset ⟨setter, applied, hm⟩
    rw [panel_of_other hint h hset]
    cases hv : (w.panel stored).settings.view m with
    | none => exact .other _ hset hv
    | some v =>
      cases hw : w.connected with
      | false =>
        have hgives : m.program.run.exec (World.act charger.peer hint) w =
          (.error notConnected, w) := offline_view hint hw hv
        rw [hgives]
        exact .offline hw hv
      | true =>
        obtain ⟨w', hgives⟩ := gives_view hint h hw hv
        have hgives : m.program.run.exec (World.act charger.peer hint) w = (.ok v, w') := hgives
        rw [hgives]
        exact .read hw hv

/-- A call of a script does to the panel what is expected of it. -/
lemma calls_of_call (h : charger.KeepsSettings stored) (call : ClientCall) (e : Ending σ) :
    Panel.Calls call (e.1, e.2.panel stored) (World.call charger.peer hint call e).1
      ((World.call charger.peer hint call e).2.1,
        (World.call charger.peer hint call e).2.2.panel stored) := by
  cases call with
  | connect => exact .connect
  | disconnect => exact .disconnect
  | method m => exact .method (does_method hint h m e.2)

end

/-- Every script over a direct link to a charger that keeps its settings can come to its end, and
then what its calls have come to, the settings of the charger and the link are what they may be for
a caller of the record. -/
theorem settings_refine_record {charger : Firmware σ} {stored : σ → Register → UInt8 → Word}
    (h : charger.KeepsSettings stored) (hint : Option String) (known : Option ℤ) {script : Script}
    (hscript : script.Plain) (s : σ) :
    (∃ es t, LineRun charger.peer hint known script s es t ∧ t.session.Finished) ∧
    ∀ es t, LineRun charger.peer hint known script s es t → t.session.Finished →
      script.Performs Panel.Calls ([], ⟨recordOf (stored s), false⟩) ()
        (t.session.log, ⟨recordOf (stored t.peer), t.client.connected⟩) := by
  constructor
  · obtain ⟨es, t, hrun, hf⟩ := exists_finished h.echoes hint known hscript s
    obtain ⟨es', hline⟩ := line_of_joinedRun hrun
    exact ⟨es', t, hline, hf⟩
  · intro es t ht hf
    have hend := ending_of_run h.echoes hscript ht hf
    have hmeets : Prog.Meets (⟨fun _ => True, fun _ _ => True⟩ : Promise ClientCall ClientCall.Result)
      (fun _ => True) script := hscript.weaken (fun _ _ => trivial) fun _ _ _ => trivial
    have hperforms := hmeets.performs (fun e : Ending σ => (e.1, e.2.panel stored))
      (fun call e _ => ⟨trivial, calls_of_call hint h call e⟩) ([], ⟨s, false, known⟩)
    rw [← hend] at hperforms
    exact hperforms

/-- A charger that keeps all its settings. -/
def keepingCharger : Firmware ((UInt8 → UInt8 → Word) × (UInt8 → Word)) := fun (s, words) frame =>
  (((storingCharger s frame).1,
      if frame.flag = Operation.write.value then Function.update words frame.register frame.raw
      else words),
    if frame.register ∈ (Register.state :: wordRegisters).map Register.value then
      some (if frame.flag = Operation.read.value
        then Frame.mk frame.register frame.flag (words frame.register) else frame).bytes
    else (storingCharger s frame).2)

/-- The words of that charger. -/
def keptWords (s : (UInt8 → UInt8 → Word) × (UInt8 → Word)) (r : Register) (seq : UInt8) : Word :=
  if r ∈ wordRegisters then s.2 r.value else s.1 r.value seq

lemma not_word_of_setting : ∀ r ∈ settingRegisters, r ∉ wordRegisters := by decide

lemma keepingCharger_keeps : keepingCharger.KeepsSettings keptWords where
  writes s frame r hr seq hseq := by
    simp only [keptWords, if_neg (not_word_of_setting r hr)]
    exact storingCharger_stores.writes s.1 frame r hr seq hseq
  reads s r hr frame hframe := by
    have hstored := storingCharger_stores.reads s.1 r hr frame hframe
    have hother : ∀ r ∈ settingRegisters,
        r.value ∉ (Register.state :: wordRegisters).map Register.value := by decide
    have hwords : storedBytes (keptWords s) r = storedBytes (fun r => s.1 r.value) r := by
      simp only [storedBytes, keptWords, if_neg (not_word_of_setting r hr)]
    rw [buildRead_readFrame] at hframe
    cases hframe
    rw [hwords, ← hstored]
    exact if_neg (hother r hr)
  wordWrites s frame r hr := by
    simp only [keptWords, if_pos hr, keepingCharger]
    by_cases hflag : frame.flag = Operation.write.value
    · simp only [hflag, and_true, if_true, Function.update_apply, eq_comm]
    · simp only [hflag, and_false, if_false]
  wordReads s r hr := by
    have hmem : r.value ∈ (Register.state :: wordRegisters).map Register.value :=
      List.mem_map_of_mem (.tail _ hr)
    simp only [keptWords, if_pos hr]
    exact if_pos hmem
  stateReads s := ⟨s.2 Register.state.value, rfl⟩
  acknowledges s frame hr hf := by
    have hmem : frame.register ∈ (Register.state :: wordRegisters).map Register.value := by
      rw [hr]
      decide
    have hread : frame.flag ≠ Operation.read.value := by
      rw [hf]
      decide
    refine ⟨frame.bytes, ?_, frame.answers⟩
    simp only [keepingCharger, if_pos hmem, if_neg hread]
  echoes s frame p h := by
    have h : (keepingCharger s frame).2 = some p := ofAnswer_eq_payload h
    simp only [keepingCharger] at h
    split_ifs at h with hmem hread
    · cases h
      exact .inl (Frame.answers _)
    · cases h
      exact .inl (Frame.answers _)
    · refine storingCharger_stores.echoes s.1 frame p ?_
      simp only [Firmware.peer, h]
      rfl

/-- Set the offset, restart, and read it. -/
def offsetScript : Script := callAll [.set (.timezone 5 30) true, .getTimezone]

theorem settings_refine_record_offset :
    ∃ es t, LineRun keepingCharger.peer none none offsetScript
        (fun _ _ => .ofNat 0, fun _ => .ofNat 0) es t ∧ t.session.Finished ∧
      offsetScript.Performs Panel.Calls
        ([], ⟨recordOf (keptWords (fun _ _ => .ofNat 0, fun _ => .ofNat 0)), false⟩) ()
        (t.session.log, ⟨recordOf (keptWords t.peer), t.client.connected⟩) := by
  have hplain : offsetScript.Plain := callAll_calls (by rintro _ ⟨⟩) (by simp)
  obtain ⟨⟨es, t, ht, hf⟩, h⟩ := settings_refine_record keepingCharger_keeps none none hplain
    (fun _ _ => .ofNat 0, fun _ => .ofNat 0)
  exact ⟨es, t, ht, hf, h es t ht hf⟩

end SpinevBle
