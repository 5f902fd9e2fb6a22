import SpinevBle.Link.Carried
import SpinevBle.Link.Effects
import SpinevBle.Protocol.Chunks

/-!
# Settings read back

A charger that stores what is written to its settings and answers a read with it. What is read back
of a text is what `decode_string` makes of it, so a text with whitespace around it or a NUL in it
comes back as another one, and every other text and the port as they were.
-/

namespace SpinevBle

open Asyncio Interaction Transition

variable {σ : Type}

/-! ### Chargers that store settings -/

/-- The registers that are written piece by piece, and the port. -/
def settingRegisters : List Register :=
  [.wifiSsid, .wifiPassword, .ocppHost, .ocppPort, .ocppPath, .ocppChargePointId]

/-- How many words such a register holds. -/
def Register.words : Register → ℕ
  | .ocppHost | .ocppPath => 16
  | .ocppPort => 1
  | _ => 8

/-- The words of a register, in the order of their numbers. -/
def storedBytes (stored : Register → UInt8 → Word) (r : Register) : Bytes :=
  (List.range r.words).flatMap fun i => (stored r (UInt8.ofNat (i + 1))).bytes

/-- The charger stores each word that is written to a setting by its number, answers a read with the
words it has, and sends register frames in reply only. `stored` are the words in its states. -/
structure Firmware.StoresSettings (charger : Firmware σ) (stored : σ → Register → UInt8 → Word) :
    Prop where
  writes : ∀ s frame, ∀ r ∈ settingRegisters, ∀ seq, seq ≠ Operation.read.value →
    stored (charger s frame).1 r seq =
      if frame.register = r.value ∧ frame.flag = seq then frame.raw else stored s r seq
  reads : ∀ s, ∀ r ∈ settingRegisters, ∀ frame, buildRead r.id = .ok frame →
    (charger s frame).2 =
      some (frameHeader ++ [frame.register, frame.flag] ++ storedBytes (stored s) r)
  echoes : charger.peer.Echoes

/-- The frame does not write to any of these registers. -/
def SparesRegisters (rs : List Register) (f : Frame) : Prop :=
  f.flag = Operation.read.value ∨ ∀ r ∈ rs, f.register ≠ r.value

/-- Which word a frame writes. -/
def Frame.key (f : Frame) : UInt8 × UInt8 := (f.register, f.flag)

/-- The frames write to different words, and none of them is a read. -/
structure WritesOnce (frames : List Frame) : Prop where
  nodup : (frames.map Frame.key).Nodup
  numbered : ∀ key ∈ frames.map Frame.key, key.2 ≠ Operation.read.value

/-- The words of these registers are the ones in `v`. -/
def HasWords (stored : σ → Register → UInt8 → Word) (rs : List Register)
    (v : Register → UInt8 → Word) (s : σ) : Prop :=
  ∀ r ∈ rs, ∀ seq, seq ≠ Operation.read.value → stored s r seq = v r seq

lemma number_ne_read {r : Register} {i : ℕ} (h : i < r.words) :
    UInt8.ofNat (i + 1) ≠ Operation.read.value := by
  have hwords : r.words ≤ 16 := by cases r <;> decide
  intro h0
  have h0 := congrArg UInt8.toNat h0
  rw [UInt8.toNat_ofNat_of_lt' (by simp only [UInt8.size]; omega)] at h0
  cases h0

lemma HasWords.storedBytes {stored : σ → Register → UInt8 → Word} {rs : List Register}
    {v : Register → UInt8 → Word} {s : σ} (h : HasWords stored rs v s) {r : Register} (hr : r ∈ rs) :
    storedBytes (stored s) r = SpinevBle.storedBytes v r := by
  refine List.flatMap_congr fun i hi => ?_
  rw [h r hr _ (number_ne_read (List.mem_range.1 hi))]

namespace Firmware.StoresSettings

variable {charger : Firmware σ} {stored : σ → Register → UInt8 → Word} {rs : List Register}
  {v : Register → UInt8 → Word}

/-- What is not written to stays. -/
lemma spared (h : charger.StoresSettings stored) (hrs : rs ⊆ settingRegisters) {s : σ} {f : Frame}
    (hf : SparesRegisters rs f) (hs : HasWords stored rs v s) :
    HasWords stored rs v (charger s f).1 := by
  intro r hr seq hseq
  rw [h.writes s f r (hrs hr) seq hseq, if_neg]
  · exact hs r hr seq hseq
  · rintro ⟨hreg, hflag⟩
    rcases hf with hread | hne
    · exact hseq (hflag ▸ hread)
    · exact hne r hr hreg

/-- What no frame writes to stays. -/
private lemma kept (h : charger.StoresSettings stored) {r : Register} (hr : r ∈ settingRegisters)
    {seq : UInt8} (hseq : seq ≠ Operation.read.value) {frames : List Frame}
    (hf : ∀ f ∈ frames, f.key ≠ (r.value, seq)) (s : σ) :
    stored (frames.foldl (fun s f => (charger s f).1) s) r seq = stored s r seq := by
  induction frames generalizing s with
  | nil => rfl
  | cons f frames ih =>
    obtain ⟨hne, hf⟩ := List.forall_mem_cons.1 hf
    rw [List.foldl_cons, ih hf, h.writes s f r hr seq hseq, if_neg]
    exact fun hkey => hne (Prod.ext hkey.1 hkey.2)

/-- A word that was written is held. -/
lemma written (h : charger.StoresSettings stored) {frames : List Frame} (hw : WritesOnce frames)
    (s : σ) {r : Register} (hr : r ∈ settingRegisters) {f : Frame} (hf : f ∈ frames)
    (hreg : f.register = r.value) :
    stored (frames.foldl (fun s f => (charger s f).1) s) r f.flag = f.raw := by
  obtain ⟨hnodup, hnumbered⟩ := hw
  induction frames generalizing s with
  | nil => cases hf
  | cons g frames ih =>
    rw [List.map_cons, List.nodup_cons] at hnodup
    obtain ⟨hg, hnumbered⟩ := List.forall_mem_cons.1 hnumbered
    have hg : g.flag ≠ Operation.read.value := hg
    rw [List.foldl_cons]
    rcases List.mem_cons.1 hf with rfl | hf
    · rw [h.kept hr hg, h.writes _ _ r hr _ hg, if_pos ⟨hreg, rfl⟩]
      intro f' hf' hkey
      refine hnodup.1 (List.mem_map.2 ⟨f', hf', ?_⟩)
      rw [hkey, Frame.key, hreg]
    · exact ih _ hf hnodup.2 hnumbered

/-- A text that was written is what its register holds. -/
lemma text (h : charger.StoresSettings stored) {frames : List Frame} (hw : WritesOnce frames)
    (s : σ) {r : Register} (hr : r ∈ settingRegisters) {value : String}
    (hshort : value.length ≤ 4 * r.words)
    (hpieces : (List.range r.words).map (piece r.value value (4 * r.words)) ⊆ frames) :
    SpinevBle.storedBytes (stored (frames.foldl (fun s f => (charger s f).1) s)) r =
      padded value (4 * r.words) := by
  rw [← carriedText_pieces r.value hshort, carriedText, List.flatMap_map]
  refine List.flatMap_congr fun i hi => ?_
  have hmem : piece r.value value (4 * r.words) i ∈ frames :=
    hpieces (List.mem_map_of_mem hi)
  exact congrArg Word.bytes (h.written hw s hr hmem rfl)

end Firmware.StoresSettings

/-! ### What the setters write -/

/-- The pieces of a text for its register. -/
def textPieces (r : Register) (value : String) : List Frame :=
  (List.range r.words).map (piece r.value value (4 * r.words))

/-- A text that fits into its register. -/
structure FitsRegister (r : Register) (value : String) : Prop where
  ascii : IsAscii value.toList
  short : value.length ≤ 4 * r.words

lemma textPieces_of_buildStringWrite {r : Register} {value : String} {fieldBytes : ℤ}
    {frames : List Frame} (hf : fieldBytes = 4 * r.words)
    (h : buildStringWrite r value fieldBytes = .ok frames) :
    frames = textPieces r value ∧ FitsRegister r value := by
  obtain ⟨n, hn, -, hshort, hascii, rfl⟩ := pieces_of_buildStringWriteOf h
  obtain rfl : n = r.words := by omega
  exact ⟨rfl, hascii, hshort⟩

lemma wifiFrames_eq_ok {ssid password : String} {frames : List Frame}
    (h : wifiFrames ssid password = .ok frames) :
    frames = textPieces .wifiSsid ssid ++ textPieces .wifiPassword password ∧
      FitsRegister .wifiSsid ssid ∧ FitsRegister .wifiPassword password := by
  simp only [wifiFrames, bind_eq_ok] at h
  obtain ⟨-, -, -, -, ssidFrames, hssid, passwordFrames, hpassword, h⟩ := h
  cases h
  obtain ⟨rfl, hs⟩ := textPieces_of_buildStringWrite rfl hssid
  obtain ⟨rfl, hp⟩ := textPieces_of_buildStringWrite rfl hpassword
  exact ⟨rfl, hs, hp⟩

/-- The frame that writes the port. -/
def portFrame (port : Word) : Frame := ⟨Register.ocppPort.value, Operation.write.value, port⟩

/-- The frames of the OCPP settings, in the order in which they are written. -/
def ocppPieces (config : OcppConfig) (port : Word) : List Frame :=
  textPieces .ocppHost config.host ++ portFrame port :: textPieces .ocppPath config.path ++
    textPieces .ocppChargePointId config.chargePointId

lemma ocppFrames_eq_ok {config : OcppConfig} {frames : List Frame}
    (h : ocppFrames config = .ok frames) :
    ∃ port : Word, frames = ocppPieces config port ∧ (port.toNat : ℤ) = config.port ∧
      FitsRegister .ocppHost config.host ∧ FitsRegister .ocppPath config.path ∧
      FitsRegister .ocppChargePointId config.chargePointId := by
  simp only [ocppFrames] at h
  split_ifs at h
  all_goals try cases h
  simp only [bind_eq_ok] at h
  obtain ⟨hostFrames, hhost, port, hport, pathFrames, hpath, idFrames, hid, h⟩ := h
  cases h
  obtain ⟨rfl, hh⟩ := textPieces_of_buildStringWrite rfl hhost
  obtain ⟨rfl, hp⟩ := textPieces_of_buildStringWrite rfl hpath
  obtain ⟨rfl, hi⟩ := textPieces_of_buildStringWrite rfl hid
  rw [buildWriteUInt_eq, buildWriteUIntOf_iff] at hport
  obtain ⟨hregister, hvalue, hflag⟩ := hport
  obtain ⟨register, flag, word⟩ := port
  obtain rfl : Register.ocppPort.value = register := hregister
  obtain rfl : flag = Operation.write.value := hflag
  exact ⟨word, rfl, hvalue.symm, hh, hp, hi⟩

/-- The words that the pieces of a text write. -/
def textKeys (r : Register) : List (UInt8 × UInt8) :=
  (List.range r.words).map fun i => (r.value, UInt8.ofNat (i + 1))

lemma map_key_textPieces (r : Register) (value : String) :
    (textPieces r value).map Frame.key = textKeys r :=
  List.map_map

lemma mem_textKeys {r : Register} {key : UInt8 × UInt8} :
    key ∈ textKeys r ↔ ∃ i < r.words, (r.value, UInt8.ofNat (i + 1)) = key := by
  simp [textKeys]

lemma nodup_textKeys (r : Register) : (textKeys r).Nodup := by
  refine List.Nodup.map_on (fun i hi j hj heq => ?_) List.nodup_range
  have hwords : r.words ≤ 16 := by cases r <;> decide
  have hnumber : ∀ n ∈ List.range r.words, (UInt8.ofNat (n + 1)).toNat = n + 1 := fun n hn => by
    have hn := List.mem_range.1 hn
    exact UInt8.toNat_ofNat_of_lt' (by simp only [UInt8.size]; omega)
  have heq := congrArg (fun key : UInt8 × UInt8 => key.2.toNat) heq
  simp only [hnumber i hi, hnumber j hj] at heq
  exact Nat.succ_injective heq

lemma writesOnce_text (r : Register) (value : String) : WritesOnce (textPieces r value) := by
  refine ⟨?_, fun key hkey => ?_⟩
  · rw [map_key_textPieces]
    exact nodup_textKeys r
  · rw [map_key_textPieces, mem_textKeys] at hkey
    obtain ⟨i, hi, rfl⟩ := hkey
    exact number_ne_read hi

lemma writesOnce_port (port : Word) : WritesOnce [portFrame port] := by
  refine ⟨List.nodup_singleton _, fun key hkey => ?_⟩
  obtain rfl := List.mem_singleton.1 hkey
  show Operation.write.value ≠ Operation.read.value
  decide

/-- Frames for different registers write to different words. -/
lemma WritesOnce.append {frames frames' : List Frame} (h : WritesOnce frames)
    (h' : WritesOnce frames') (hd : ∀ f ∈ frames, ∀ f' ∈ frames', f.register ≠ f'.register) :
    WritesOnce (frames ++ frames') := by
  constructor
  · rw [List.map_append, List.nodup_append]
    refine ⟨h.nodup, h'.nodup, fun key hkey key' hkey' heq => ?_⟩
    obtain ⟨f, hf, rfl⟩ := List.mem_map.1 hkey
    obtain ⟨f', hf', rfl⟩ := List.mem_map.1 hkey'
    exact hd f hf f' hf' (congrArg Prod.fst heq)
  · intro key hkey
    rw [List.map_append, List.mem_append] at hkey
    exact hkey.elim (h.numbered key) (h'.numbered key)

lemma register_of_mem_textPieces {r : Register} {value : String} {f : Frame}
    (h : f ∈ textPieces r value) : f.register = r.value := by
  obtain ⟨i, -, rfl⟩ := List.mem_map.1 h
  rfl

lemma writesOnce_wifi (ssid password : String) :
    WritesOnce (textPieces .wifiSsid ssid ++ textPieces .wifiPassword password) := by
  refine (writesOnce_text _ _).append (writesOnce_text _ _) fun f hf f' hf' => ?_
  rw [register_of_mem_textPieces hf, register_of_mem_textPieces hf']
  decide

lemma writesOnce_ocpp (config : OcppConfig) (port : Word) : WritesOnce (ocppPieces config port) := by
  have hport : ∀ f ∈ portFrame port :: textPieces .ocppPath config.path,
      f.register = Register.ocppPort.value ∨ f.register = Register.ocppPath.value := fun f hf =>
    (List.mem_cons.1 hf).imp (congrArg Frame.register) register_of_mem_textPieces
  have hpath : WritesOnce (portFrame port :: textPieces .ocppPath config.path) := by
    refine (writesOnce_port port).append (writesOnce_text _ _) fun f hf f' hf' => ?_
    rw [List.mem_singleton.1 hf, register_of_mem_textPieces hf']
    show Register.ocppPort.value ≠ Register.ocppPath.value
    decide
  have hhost : WritesOnce (textPieces .ocppHost config.host ++
      portFrame port :: textPieces .ocppPath config.path) := by
    refine (writesOnce_text _ _).append hpath fun f hf f' hf' => ?_
    rw [register_of_mem_textPieces hf]
    obtain hf' | hf' := hport f' hf' <;> rw [hf'] <;> decide
  refine hhost.append (writesOnce_text _ _) fun f hf f' hf' => ?_
  rw [register_of_mem_textPieces hf']
  rcases List.mem_append.1 hf with hf | hf
  · rw [register_of_mem_textPieces hf]
    decide
  · obtain hf | hf := hport f hf <;> rw [hf] <;> decide

/-! ### The words of the settings -/

section

variable {charger : Firmware σ} {stored : σ → Register → UInt8 → Word}

/-- The words that a charger has after these frames. -/
def wordsAfter (charger : Firmware σ) (stored : σ → Register → UInt8 → Word) (frames : List Frame)
    (s : σ) : Register → UInt8 → Word :=
  stored (frames.foldl (fun s f => (charger s f).1) s)

lemma storedBytes_wifi (h : charger.StoresSettings stored) {ssid password : String}
    (hs : FitsRegister .wifiSsid ssid) (hp : FitsRegister .wifiPassword password) (s : σ) :
    let v := wordsAfter charger stored
      (textPieces .wifiSsid ssid ++ textPieces .wifiPassword password) s
    storedBytes v .wifiSsid = padded ssid 32 ∧ storedBytes v .wifiPassword = padded password 32 := by
  have hw := writesOnce_wifi ssid password
  constructor
  · exact h.text hw s (by decide) hs.short (List.subset_append_left _ _)
  · exact h.text hw s (by decide) hp.short (List.subset_append_right _ _)

lemma storedBytes_ocpp (h : charger.StoresSettings stored) {config : OcppConfig} (port : Word)
    (hh : FitsRegister .ocppHost config.host) (hp : FitsRegister .ocppPath config.path)
    (hi : FitsRegister .ocppChargePointId config.chargePointId) (s : σ) :
    let v := wordsAfter charger stored (ocppPieces config port) s
    storedBytes v .ocppHost = padded config.host 64 ∧ storedBytes v .ocppPort = port.bytes ∧
      storedBytes v .ocppPath = padded config.path 64 ∧
      storedBytes v .ocppChargePointId = padded config.chargePointId 32 := by
  have hw := writesOnce_ocpp config port
  refine ⟨h.text hw s (by decide) hh.short ?_, ?_, h.text hw s (by decide) hp.short ?_,
    h.text hw s (by decide) hi.short ?_⟩
  · exact fun f hf => List.mem_append_left _ (List.mem_append_left _ hf)
  · have hmem : portFrame port ∈ ocppPieces config port := by simp [ocppPieces]
    have hport := h.written hw s (r := .ocppPort) (by decide) hmem rfl
    exact (List.append_nil _).trans (congrArg Word.bytes hport)
  · exact fun f hf => List.mem_append_left _ (List.mem_append_right _ (.tail _ hf))
  · exact List.subset_append_right _ _

/-! ### Reads -/

variable {rs : List Register} {v : Register → UInt8 → Word} {w : World σ}

/-- The client is connected to a charger that has these words. -/
structure World.Reads (stored : σ → Register → UInt8 → Word) (rs : List Register)
    (v : Register → UInt8 → Word) (w : World σ) : Prop where
  connected : w.connected = true
  words : HasWords stored rs v w.peer

lemma words_pos (r : Register) : 0 < r.words := by cases r <;> decide

/-- The frame that reads a register. -/
def readFrame (r : Register) : Frame := ⟨r.value, Operation.read.value, Word.ofNat 0⟩

lemma buildRead_readFrame (r : Register) : buildRead r.id = .ok (readFrame r) :=
  buildRead_zero r Operation.read.value

variable (hint : Option String)

lemma gives_readFrame {peer : Peer σ} (r : Register) :
    Client.Gives peer hint (raising (buildRead r.id)) w (.ok (readFrame r)) w := by
  rw [buildRead_readFrame]
  exact .raising _

/-- The reply to the read of a register with these words. -/
def readReply (v : Register → UInt8 → Word) (r : Register) : Bytes :=
  frameHeader ++ [r.value, Operation.read.value] ++ storedBytes v r

lemma answers_words (v : Register → UInt8 → Word) (r : Register) (register flag : UInt8) :
    Answers (frameHeader ++ [register, flag] ++ storedBytes v r) register flag := by
  refine ⟨⟨_, (List.append_assoc _ _ _).symm⟩, ?_, rfl, rfl⟩
  obtain ⟨n, hn⟩ := Nat.exists_eq_succ_of_ne_zero (words_pos r).ne'
  rw [storedBytes, hn, List.range_succ_eq_map]
  simp [frameHeader, Word.bytes]

/-- A read of a setting gives its words, and changes none. -/
private lemma gives_reply (h : charger.StoresSettings stored) (hrs : rs ⊆ settingRegisters)
    (hw : w.Reads stored rs v) {r : Register} (hr : r ∈ rs) :
    ∃ w', Client.Gives charger.peer hint (request (readFrame r) r.value) w (.ok (readReply v r)) w' ∧
      w'.Reads stored rs v := by
  have hanswer := h.reads w.peer r (hrs hr) _ (buildRead_readFrame r)
  rw [hw.words.storedBytes hr] at hanswer
  have hpeer : charger.peer w.peer (readFrame r) =
      ((charger w.peer (readFrame r)).1, .payload (readReply v r)) := by
    simp only [Firmware.peer, hanswer]
    rfl
  have haccepts : (Job.request (readFrame r) r.value).Accepts (readReply v r) :=
    answers_words v r _ _
  exact ⟨_, .request hw.connected hpeer (Job.settled_of_accepts haccepts), hw.connected,
    h.spared hrs (.inl rfl) hw.words⟩

/-- Reading a text gives what its register decodes to. -/
lemma gives_readString (h : charger.StoresSettings stored) (hrs : rs ⊆ settingRegisters)
    (hw : w.Reads stored rs v) {r : Register} (hr : r ∈ rs) :
    ∃ w', Client.Gives charger.peer hint (asyncReadString r.id) w
        (.ok (decodeString (storedBytes v r))) w' ∧ w'.Reads stored rs v := by
  obtain ⟨w', hgives, hw'⟩ := gives_reply hint h hrs hw hr
  exact ⟨w', (gives_readFrame hint r).bind (hgives.bind (.ok _)), hw'⟩

/-- Reading the port gives the number in its register. -/
lemma gives_port (h : charger.StoresSettings stored) (hrs : rs ⊆ settingRegisters)
    (hw : w.Reads stored rs v) (hr : .ocppPort ∈ rs) {port : Word}
    (hport : storedBytes v .ocppPort = port.bytes) :
    ∃ w', Client.Gives charger.peer hint (readValue .ocppPort decodeUInt) w (.ok port.toNat) w' ∧
      w'.Reads stored rs v := by
  obtain ⟨w', hgives, hw'⟩ := gives_reply hint h hrs hw hr
  refine ⟨w', ?_, hw'⟩
  rw [readReply, hport] at hgives
  have hraw : Client.Gives charger.peer hint (asyncReadRaw Register.ocppPort.id) w
      (.ok port.bytes) w' := (gives_readFrame hint .ocppPort).bind (hgives.bind (.raising _))
  exact hraw.bind (.raising _)

/-! ### Writes -/

/-- Every frame that a setter writes is delivered, and so is its commit, which is no setting. -/
lemma gives_set (h : charger.StoresSettings stored) (hrs : rs ⊆ settingRegisters) {setter : Setter}
    (hs : setter.isRequest = false) {frames : List Frame} (hf : setter.frames = .ok frames)
    (hw : w.connected = true) (applied : Bool) :
    ∃ w', Client.Gives charger.peer hint (setter.program applied) w (.ok ()) w' ∧
      w'.Reads stored rs (wordsAfter charger stored frames w.peer) := by
  have hreturns : ∀ s f, (charger.peer s f).2.outcome = some .returned := by
    intro s f
    simp only [Firmware.peer]
    cases (charger s f).2 <;> rfl
  have hframes : Client.Gives charger.peer hint (raising setter.frames) w (.ok frames) w := by
    rw [hf]
    exact .raising _
  have hwritten : Client.Gives charger.peer hint (writeFrames frames) w (.ok ()) _ :=
    .writeFrames hw hreturns
  rw [Setter.program_eq hs]
  cases applied with
  | false => exact ⟨_, hframes.bind (hwritten.bind (.ok ())), hw, fun _ _ _ _ => rfl⟩
  | true =>
    obtain ⟨frame, hcommit⟩ : ∃ frame, buildCommit = .ok frame := ⟨_, rfl⟩
    have hbuilt : ∀ w : World σ,
        Client.Gives charger.peer hint (raising buildCommit) w (.ok frame) w := by
      rw [hcommit]
      exact fun w => .raising _
    refine ⟨_, hframes.bind (hwritten.bind ((hbuilt _).bind (.writeFrames hw hreturns))), hw, ?_⟩
    refine h.spared hrs (.inr fun r hr => ?_) fun _ _ _ _ => rfl
    rw [register_buildWriteUInt hcommit]
    have hne : ∀ r ∈ settingRegisters, Register.commit.value ≠ r.value := by decide
    exact hne r (hrs hr)

end

/-! ### Calls in between -/

/-- The calls of the script do not set these registers, and do not read the history. -/
def Script.Leaves (rs : List Register) (script : Script) : Prop :=
  script.Calls fun call => (∀ count, call ≠ .method (.getHistory count)) ∧
    ∀ setter applied, call = .method (.set setter applied) → ∀ r ∈ rs, r ∉ setter.registers

lemma Script.leaves_pure (rs : List Register) : Script.Leaves rs (.pure ()) := by
  unfold Script.Leaves Script.Calls
  exact Prog.Meets.pure_iff.2 trivial

lemma Script.Leaves.plain {rs : List Register} {script : Script} (h : script.Leaves rs) :
    script.Plain :=
  h.weaken (fun _ h => h.1) fun _ _ _ => trivial

/-- No other register has the byte of a setting. -/
lemma Register.eq_of_setting (r' : Register) :
    ∀ r ∈ settingRegisters, r'.value = r.value → r' = r := by
  cases r' <;> decide

/-- A method that does not set the registers sends no frame that does. -/
lemma Method.Issues.spares {m : Method} {j : Job} (h : m.Issues j) {rs : List Register}
    (hrs : rs ⊆ settingRegisters)
    (hm : ∀ setter applied, m = .set setter applied → ∀ r ∈ rs, r ∉ setter.registers) :
    ∀ f ∈ j.frames, SparesRegisters rs f := by
  have hother : ∀ r', r' ∉ settingRegisters → ∀ f : Frame, f.register = r'.value →
      SparesRegisters rs f := by
    refine fun r' hr' f hf => .inr fun r hr heq => hr' ?_
    exact Register.eq_of_setting r' r (hrs hr) (hf ▸ heq) ▸ hrs hr
  have hread : ∀ {register parameter frame}, buildRead register parameter = .ok frame →
      ∀ f ∈ [frame], SparesRegisters rs f := by
    intro register parameter frame h f hf
    obtain rfl := List.mem_singleton.1 hf
    exact .inl (buildRead_iff.1 h).2.2.symm
  intro f hf
  cases h with
  | readRaw h | readString h | read _ h => exact hread h f hf
  | alarms _ h =>
    obtain rfl := List.mem_singleton.1 hf
    exact hother .alarms (by decide) _ (register_buildAlarmRead h)
  | control h =>
    obtain rfl := List.mem_singleton.1 hf
    exact hother .control (by decide) _ (register_buildControl h)
  | limit h =>
    obtain rfl := List.mem_singleton.1 hf
    exact hother .currentLimit (by decide) _ (register_buildWriteFloat h)
  | commit _ h =>
    obtain rfl := List.mem_singleton.1 hf
    exact hother .commit (by decide) _ (register_buildWriteUInt h)
  | @setting setter applied frames hs h =>
    obtain ⟨-, r', hr', hreg⟩ := setter.writes h f hf
    refine .inr fun r hr heq => hm setter applied rfl r hr ?_
    exact Register.eq_of_setting r' r (hrs hr) (hreg ▸ heq) ▸ hr'
  | @history count =>
    unfold Job.frames at hf
    simp only at hf
    split at hf
    · next frame hx =>
      obtain rfl := List.mem_singleton.1 hf
      exact .inl (flag_buildReadOf hx)
    · cases hf

/-! ### Runs -/

section

variable {charger : Firmware σ} {stored : σ → Register → UInt8 → Word} {rs : List Register}
  {hint : Option String} {known : Option ℤ} {before between : Script} {s : σ}

/-- Any calls, then the setter, and then calls that leave what it has set. -/
def setScript (before : Script) (setter : Setter) (applied : Bool) (between : Script) : Script :=
  before.thenCall [.set setter applied] >>= fun _ => between

/-- In every run over a direct link, the setter returns, and the getters that are called later come
to these results. -/
def Firmware.ReadsBack (charger : Firmware σ) (hint : Option String) (known : Option ℤ)
    (before : Script) (setter : Setter) (applied : Bool) (between : Script) (getters : List Method)
    (results : List Entry) (s : σ) : Prop :=
  let script := setScript before setter applied between
  let ending (script : Script) : Ending σ :=
    (script.exec (World.call charger.peer hint) ([], ⟨s, false, known⟩)).2
  (ending (before.thenCall [.set setter applied])).1 =
      (ending before).1 ++ [⟨.set setter applied, .ok ()⟩] ∧
    (∃ es t, LineRun charger.peer hint known (script.thenCall getters) s es t ∧
      t.session.Finished) ∧
    ∀ es t, LineRun charger.peer hint known (script.thenCall getters) s es t →
      t.session.Finished → t.session.log = (ending script).1 ++ results

/-- The setter has written its frames, and what it has written is there when the getters are
called. -/
private lemma readsBack_of_gives (h : charger.StoresSettings stored) (setter : Setter)
    (hrs : setter.registers ⊆ settingRegisters) (hs : setter.isRequest = false)
    {frames : List Frame} (hf : setter.frames = .ok frames) (hbefore : before.Plain)
    (hbetween : between.Leaves setter.registers) {applied : Bool} {getters : List Method}
    (hplain : ∀ m ∈ getters, ∀ count, m ≠ .getHistory count) {results : List Entry}
    (hgetters : ∀ (s : σ) (w : World σ), w.Reads stored setter.registers
      (wordsAfter charger stored frames s) → Results charger.peer hint w getters results) :
    charger.ReadsBack hint known before setter applied between getters results s := by
  have hset : Script.Plain (before.thenCall [.set setter applied]) :=
    Script.thenCall_calls hbefore nofun <| by
      simp only [List.mem_singleton, forall_eq]
      nofun
  have hscript : (setScript before setter applied between).Plain :=
    hset.bind fun _ _ => hbetween.plain
  have hall : Script.Plain ((setScript before setter applied between).thenCall getters) :=
    Script.thenCall_calls hscript nofun fun m hm count hc => hplain m hm count (by cases hc; rfl)
  let e : Ending σ := (before.exec (World.call charger.peer hint) ([], ⟨s, false, known⟩)).2
  obtain ⟨w', hgives, hw'⟩ :=
    gives_set hint h hrs hs hf (w := { e.2 with connected := true }) rfl applied
  have hone : ((before.thenCall [.set setter applied]).exec (World.call charger.peer hint)
      ([], ⟨s, false, known⟩)).2 = (e.1 ++ [⟨.set setter applied, .ok ()⟩], w') :=
    Script.exec_thenCall_one (m := .set setter applied) (r := .ok ()) hgives
  -- the calls in between write to none of the registers
  have hspares : ∀ m, ((∀ count, ClientCall.method m ≠ .method (.getHistory count)) ∧
      ∀ setter' applied', ClientCall.method m = .method (.set setter' applied') →
        ∀ r ∈ setter.registers, r ∉ setter'.registers) →
      ∀ j, m.Issues j → ∀ f ∈ j.frames, SparesRegisters setter.registers f :=
    fun m hm j hj => hj.spares hrs fun setter' applied' hset => hm.2 setter' applied' (hset ▸ rfl)
  have hkept : ∀ log, HasWords stored setter.registers
      (wordsAfter charger stored frames e.2.peer)
      (between.exec (World.call charger.peer hint) (log, w')).2.2.peer := fun log =>
    Script.keeps (I := HasWords stored setter.registers (wordsAfter charger stored frames e.2.peer))
      hbetween hspares (fun s f hf hs => h.spared hrs hf hs) hw'.words
  have hexec : (setScript before setter applied between).exec (World.call charger.peer hint)
      ([], ⟨s, false, known⟩) = between.exec (World.call charger.peer hint)
        (e.1 ++ [⟨.set setter applied, .ok ()⟩], w') := by
    rw [setScript, Prog.exec_bind, hone]
  refine ⟨congrArg Prod.fst hone, ?_, fun es t ht htf => ?_⟩
  · obtain ⟨es, t, hrun, htf⟩ := exists_finished h.echoes hint known hall s
    obtain ⟨es', hline⟩ := line_of_joinedRun hrun
    exact ⟨es', t, hline, htf⟩
  · refine (congrArg Prod.fst (ending_of_run h.echoes hall ht htf)).trans (Script.log_thenCall ?_)
    rw [hexec]
    exact hgetters _ _ ⟨rfl, hkept _⟩

variable (hint) in
private lemma gives_readBack (h : charger.StoresSettings stored) (hrs : rs ⊆ settingRegisters)
    {v : Register → UInt8 → Word} {w : World σ} (hw : w.Reads stored rs v) {r : Register}
    (hr : r ∈ rs) {value : String} (hascii : IsAscii value.toList) {n : ℕ}
    (hv : storedBytes v r = padded value n) :
    ∃ w', Client.Gives charger.peer hint (asyncReadString r.id) w (.ok (readBack value)) w' ∧
      w'.Reads stored rs v := by
  have hgives := gives_readString hint h hrs hw hr
  rwa [hv, decodeString_padded hascii] at hgives

lemma readsBack_wifi (h : charger.StoresSettings stored) {ssid password : String}
    (haccepts : ∃ frames, wifiFrames ssid password = .ok frames) (hbefore : before.Plain)
    (applied : Bool) (hbetween : between.Leaves (Setter.wifi ssid password).registers) :
    charger.ReadsBack hint known before (.wifi ssid password) applied between
      [.getWifiSsid, .getWifiPassword]
      [⟨.getWifiSsid, .ok (readBack ssid)⟩, ⟨.getWifiPassword, .ok (readBack password)⟩] s := by
  obtain ⟨frames, hf⟩ := haccepts
  obtain ⟨rfl, hs, hp⟩ := wifiFrames_eq_ok hf
  have hrs : [Register.wifiSsid, .wifiPassword] ⊆ settingRegisters := by decide
  refine readsBack_of_gives h (.wifi ssid password) hrs rfl hf hbefore hbetween (by simp)
    fun s w hw => ?_
  obtain ⟨hssid, hpassword⟩ := storedBytes_wifi h hs hp s
  obtain ⟨w', hgives, hw'⟩ :=
    gives_readBack hint h hrs hw (.head _) hs.ascii hssid
  obtain ⟨w'', hgives', -⟩ :=
    gives_readBack hint h hrs hw' (.tail _ (.head _)) hp.ascii hpassword
  exact .cons (m := .getWifiSsid) hgives (.cons (m := .getWifiPassword) hgives' .nil)

lemma readsBack_ocpp (h : charger.StoresSettings stored) {config : OcppConfig}
    (haccepts : ∃ frames, ocppFrames config = .ok frames) (hbefore : before.Plain)
    (applied : Bool) (hbetween : between.Leaves (Setter.ocppConfig config).registers) :
    charger.ReadsBack hint known before (.ocppConfig config) applied between [.getOcppConfig]
      [⟨.getOcppConfig, .ok ⟨readBack config.host, config.port, readBack config.path,
        readBack config.chargePointId⟩⟩] s := by
  obtain ⟨frames, hf⟩ := haccepts
  obtain ⟨port, rfl, hport, hh, hp, hi⟩ := ocppFrames_eq_ok hf
  have hrs : [Register.ocppHost, .ocppPort, .ocppPath, .ocppChargePointId] ⊆ settingRegisters := by
    decide
  refine readsBack_of_gives h (.ocppConfig config) hrs rfl hf hbefore hbetween (by simp)
    fun s w hw => ?_
  obtain ⟨hhost, hword, hpath, hid⟩ := storedBytes_ocpp h port hh hp hi s
  obtain ⟨w₁, hgives₁, hw₁⟩ :=
    gives_readBack hint h hrs hw (.head _) hh.ascii hhost
  obtain ⟨w₂, hgives₂, hw₂⟩ := gives_port hint h hrs hw₁ (.tail _ (.head _)) hword
  obtain ⟨w₃, hgives₃, hw₃⟩ :=
    gives_readBack hint h hrs hw₂ (.tail _ (.tail _ (.head _))) hp.ascii hpath
  obtain ⟨w₄, hgives₄, -⟩ :=
    gives_readBack hint h hrs hw₃ (.tail _ (.tail _ (.tail _ (.head _)))) hi.ascii hid
  rw [← hport]
  exact .cons (m := .getOcppConfig)
    (hgives₁.bind (hgives₂.bind (hgives₃.bind (hgives₄.bind (.ok _))))) .nil

end

/-- Whatever the settings that the setters accept, on every charger that stores them and between any
other calls, the texts are read back as `readAs` says and the port as it was. -/
def SettingsReadAs (readAs : String → String) : Prop :=
  ∀ (σ : Type) (charger : Firmware σ) (stored : σ → Register → UInt8 → Word),
    charger.StoresSettings stored → ∀ (hint : Option String) (known : Option ℤ)
      (before between : Script) (applied : Bool) (s : σ), before.Plain →
    (∀ ssid password, (∃ frames, wifiFrames ssid password = .ok frames) →
      between.Leaves (Setter.wifi ssid password).registers →
      charger.ReadsBack hint known before (.wifi ssid password) applied between
        [.getWifiSsid, .getWifiPassword]
        [⟨.getWifiSsid, .ok (readAs ssid)⟩, ⟨.getWifiPassword, .ok (readAs password)⟩] s) ∧
    ∀ config, (∃ frames, ocppFrames config = .ok frames) →
      between.Leaves (Setter.ocppConfig config).registers →
      charger.ReadsBack hint known before (.ocppConfig config) applied between [.getOcppConfig]
        [⟨.getOcppConfig, .ok ⟨readAs config.host, config.port, readAs config.path,
          readAs config.chargePointId⟩⟩] s

lemma settingsReadAs_readBack : SettingsReadAs readBack :=
  fun _ _ _ h _ _ _ _ applied _ hbefore =>
    ⟨fun _ _ haccepts hbetween => readsBack_wifi h haccepts hbefore applied hbetween,
      fun _ haccepts hbetween => readsBack_ocpp h haccepts hbefore applied hbetween⟩

/-- A text comes back as what is in front of its first NUL, without the whitespace around it, which
is the text itself if it has neither. -/
theorem settings_read_back :
    SettingsReadAs (fun value => String.ofList (strip (beforeNul value.toList))) ∧
      ∀ value : String, String.ofList (strip (beforeNul value.toList)) = value ↔
        (∀ c ∈ value.toList, c.toNat ≠ 0) ∧ Stripped value.toList :=
  ⟨settingsReadAs_readBack, fun _ => readBack_eq_self_iff⟩

/-- A charger that stores every word that it is sent, without a reply. -/
def storingCharger : Firmware (UInt8 → UInt8 → Word) := fun s frame =>
  if frame.flag = Operation.read.value then
    (s, (settingRegisters.find? fun r => r.value = frame.register).map fun r =>
      frameHeader ++ [frame.register, frame.flag] ++ storedBytes (fun r => s r.value) r)
  else (Function.update s frame.register (Function.update (s frame.register) frame.flag frame.raw),
    none)

lemma storingCharger_stores : storingCharger.StoresSettings fun s r => s r.value where
  writes s frame r hr seq hseq := by
    unfold storingCharger
    split_ifs with hread hkey hkey
    · exact absurd (hkey.2 ▸ hread) hseq
    · rfl
    · simp only [hkey.1, hkey.2, Function.update_self]
    · by_cases hreg : r.value = frame.register
      · have hflag : seq ≠ frame.flag := fun h => hkey ⟨hreg.symm, h.symm⟩
        simp only [hreg, Function.update_self, Function.update_of_ne hflag]
      · simp only [Function.update_of_ne hreg]
  reads s r hr frame hframe := by
    rw [buildRead_readFrame] at hframe
    cases hframe
    have hfind : (settingRegisters.find? fun r' => r'.value = r.value) = some r := by
      revert hr
      cases r <;> decide
    unfold storingCharger
    simp only [readFrame, if_true]
    exact congrArg (Option.map _) hfind
  echoes s frame p h := by
    have h : (storingCharger s frame).2 = some p := ofAnswer_eq_payload h
    unfold storingCharger at h
    split_ifs at h with hread
    obtain ⟨r, -, rfl⟩ := Option.map_eq_some_iff.1 h
    exact .inl (answers_words _ r _ _)

/-- The space in front of an SSID is not read back. -/
theorem spaces_are_lost : ¬ SettingsReadAs id := by
  intro h
  have haccepts : ∃ frames, wifiFrames " a" "b" = .ok frames := ⟨_, rfl⟩
  have hruns := fun readAs (h : SettingsReadAs readAs) =>
    (h _ storingCharger _ storingCharger_stores none none (.pure ()) (.pure ()) true
      (fun _ _ => .ofNat 0) Script.plain_pure).1 " a" "b" haccepts (Script.leaves_pure _)
  obtain ⟨-, -, hid⟩ := hruns id h
  obtain ⟨-, ⟨es, t, ht, htf⟩, hback⟩ := hruns readBack settingsReadAs_readBack
  have hlogs := (hid es t ht htf).symm.trans (hback es t ht htf)
  have hne : readBack " a" ≠ " a" := by decide
  have hentries := List.append_cancel_left hlogs
  simp only [List.cons.injEq, Entry.mk.injEq, heq_eq_eq, true_and, Except.ok.injEq, id] at hentries
  exact hne hentries.1.symm

end SpinevBle
